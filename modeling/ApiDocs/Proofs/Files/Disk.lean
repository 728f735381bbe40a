import ApiDocs.Files.Disk
import ApiDocs.Proofs.Files.Path
import Mathlib.Data.List.TakeWhile
import Mathlib.Tactic.SplitIfs

namespace ApiDocs.Files.Disk

variable {d e : Disk} {place next : Place} {path name piece : Text} {pieces : List Text}

section Items

theorem find?_putItem (items : List (Place × Item)) (place : Place) (item : Item) (p : Place) :
    (putItem items place item).find? (·.1 = p) =
      if p = place then some (place, item) else items.find? (·.1 = p) := by
  induction items with
  | nil =>
      rw [putItem, List.find?_cons]
      by_cases hp : p = place
      · rw [if_pos hp, decide_eq_true hp.symm]
      · rw [if_neg hp, decide_eq_false fun h => hp h.symm]
  | cons first items ih =>
      obtain ⟨q, i⟩ := first
      rw [putItem]
      by_cases hq : q = place
      · subst hq
        rw [if_pos rfl, List.find?_cons, List.find?_cons]
        by_cases hp : p = q
        · rw [if_pos hp, decide_eq_true hp.symm]
        · rw [if_neg hp, decide_eq_false fun h => hp h.symm]
      · rw [if_neg hq, List.find?_cons, List.find?_cons, ih]
        by_cases hp : q = p
        · subst hp
          simp only [decide_true, if_neg hq]
        · rw [decide_eq_false hp]

theorem item?_nil (d : Disk) : d.item? [] = some .directory := if_pos rfl

theorem isSome_item? (hne : place ≠ []) :
    (d.item? place).isSome ↔ ∃ item, (place, item) ∈ d.items := by
  rw [item?, if_neg hne, Option.isSome_map, List.find?_isSome]
  constructor
  · rintro ⟨⟨p, item⟩, hmem, hp⟩
    obtain rfl := of_decide_eq_true hp
    exact ⟨item, hmem⟩
  · exact fun ⟨item, hmem⟩ => ⟨_, hmem, decide_eq_true rfl⟩

theorem item?_put (h : place ≠ []) (d : Disk) (item : Item) (p : Place) :
    (d.put place item).item? p = if p = place then some item else d.item? p := by
  unfold item? put
  rw [find?_putItem]
  split_ifs with hroot hp
  · exact absurd (hp.symm.trans hroot) h
  · rfl
  · rfl
  · rfl

theorem item?_put_self (h : place ≠ []) (d : Disk) (item : Item) :
    (d.put place item).item? place = some item := by
  rw [item?_put h, if_pos rfl]

theorem item?_put_of_ne (h : place ≠ []) {p : Place} (hp : p ≠ place) (d : Disk) (item : Item) :
    (d.put place item).item? p = d.item? p := by
  rw [item?_put h, if_neg hp]

theorem snoc_ne_nil (place : Place) (name : Text) : place ++ [name] ≠ [] :=
  List.append_ne_nil_of_right_ne_nil _ (List.cons_ne_nil _ _)

end Items

/-- Directories stay, and files stay files. -/
structure Grows (d e : Disk) : Prop where
  home : e.home = d.home
  directory : ∀ {place}, d.item? place = some .directory → e.item? place = some .directory
  file : ∀ {place content}, d.item? place = some (.file content) →
    ∃ content', e.item? place = some (.file content')

/-- Only directories have come. -/
structure Adds (d e : Disk) : Prop where
  home : e.home = d.home
  kept : ∀ {place item}, d.item? place = some item → e.item? place = some item
  file : ∀ {place content}, e.item? place = some (.file content) →
    d.item? place = some (.file content)

section Growth

theorem Grows.refl (d : Disk) : Grows d d := ⟨rfl, id, fun h => ⟨_, h⟩⟩

theorem Grows.trans {f : Disk} (h : Grows d e) (h' : Grows e f) : Grows d f where
  home := h'.home.trans h.home
  directory hd := h'.directory (h.directory hd)
  file hf := by
    obtain ⟨content, hf⟩ := h.file hf
    exact h'.file hf

theorem Adds.refl (d : Disk) : Adds d d := ⟨rfl, id, id⟩

theorem Adds.trans {f : Disk} (h : Adds d e) (h' : Adds e f) : Adds d f where
  home := h'.home.trans h.home
  kept hi := h'.kept (h.kept hi)
  file hf := h.file (h'.file hf)

theorem Adds.grows (h : Adds d e) : Grows d e := ⟨h.home, h.kept, fun hf => ⟨_, h.kept hf⟩⟩

theorem Adds.item?_file (h : Adds d e) (place : Place) (content : ByteArray) :
    e.item? place = some (.file content) ↔ d.item? place = some (.file content) :=
  ⟨h.file, h.kept⟩

theorem adds_put (h : d.item? place = none) : Adds d (d.put place .directory) := by
  have hne : place ≠ [] := by
    rintro rfl
    cases (item?_nil d).symm.trans h
  refine ⟨rfl, fun {p item} hp => ?_, fun {p content} hp => ?_⟩
  · rw [item?_put_of_ne hne (by rintro rfl; cases h.symm.trans hp)]
    exact hp
  · rw [item?_put hne] at hp
    split_ifs at hp
    · cases hp
    · exact hp

theorem grows_put (h : d.item? place ≠ some .directory) (content : ByteArray) :
    Grows d (d.put place (.file content)) := by
  have hne : place ≠ [] := by
    rintro rfl
    exact h (item?_nil d)
  refine ⟨rfl, fun {p} hp => ?_, fun {p content'} hp => ?_⟩
  · rw [item?_put_of_ne hne (by rintro rfl; exact h hp)]
    exact hp
  · rw [item?_put hne]
    split_ifs
    · exact ⟨content, rfl⟩
    · exact ⟨content', hp⟩

theorem Grows.isSome (h : Grows d e) (hi : (d.item? place).isSome) : (e.item? place).isSome := by
  cases hitem : d.item? place with
  | none => cases hitem ▸ hi
  | some item =>
      cases item with
      | directory => rw [h.directory hitem]; rfl
      | file content =>
          obtain ⟨content', hfile⟩ := h.file hitem
          rw [hfile]
          rfl

end Growth

section Walking

inductive Leads (d : Disk) (place : Place) : Text → Place → Prop
  | empty : Leads d place [] place
  | here : Leads d place "." place
  | up : Leads d place ".." place.dropLast
  | down {piece : Text} (named : isStep piece = false) (size : Text.byteSize piece ≤ longestName)
      (found : (d.item? (place ++ [piece])).isSome) : Leads d place piece (place ++ [piece])

theorem isStep_eq_false : isStep piece = false ↔ ¬ (piece = [] ∨ piece = ".") ∧ piece ≠ ".." := by
  simp only [isStep, Bool.or_eq_false_iff, decide_eq_false_iff_not, not_or, ne_eq]

theorem step_eq_ok : d.step place piece = .ok next ↔
    d.item? place = some .directory ∧ Leads d place piece next := by
  unfold Disk.step
  constructor
  · intro h
    split at h
    · cases h
    · cases h
    · next hdirectory =>
      refine ⟨hdirectory, ?_⟩
      split_ifs at h with hhere hup hsize hfound <;> cases h
      · rcases hhere with rfl | rfl
        · exact .empty
        · exact .here
      · exact hup ▸ .up
      · exact .down (isStep_eq_false.2 ⟨hhere, hup⟩) (Nat.le_of_not_lt hsize) hfound
  · rintro ⟨hdirectory, hleads⟩
    rw [hdirectory]
    cases hleads with
    | empty => exact if_pos (.inl rfl)
    | here => exact if_pos (.inr rfl)
    | up => rfl
    | down hnamed hsize hfound =>
        obtain ⟨hhere, hup⟩ := isStep_eq_false.1 hnamed
        rw [if_neg hhere, if_neg hup, if_neg (Nat.not_lt.2 hsize), if_pos hfound]

theorem Grows.step (h : Grows d e) (hs : d.step place piece = .ok next) :
    e.step place piece = .ok next := by
  obtain ⟨hdirectory, hleads⟩ := step_eq_ok.1 hs
  refine step_eq_ok.2 ⟨h.directory hdirectory, ?_⟩
  cases hleads with
  | empty => exact .empty
  | here => exact .here
  | up => exact .up
  | down hstep hsize hfound => exact .down hstep hsize (h.isSome hfound)

theorem walk_cons : d.walk place (piece :: pieces) = .ok next ↔
    ∃ middle, d.step place piece = .ok middle ∧ d.walk middle pieces = .ok next := by
  rw [walk]
  cases d.step place piece with
  | ok middle => exact ⟨fun h => ⟨middle, rfl, h⟩, fun ⟨_, hm, h⟩ => by cases hm; exact h⟩
  | error fault => exact ⟨nofun, nofun⟩

theorem walk_append {more : List Text} : d.walk place (pieces ++ more) = .ok next ↔
    ∃ middle, d.walk place pieces = .ok middle ∧ d.walk middle more = .ok next := by
  induction pieces generalizing place with
  | nil => exact ⟨fun h => ⟨place, rfl, h⟩, fun ⟨_, hm, h⟩ => by cases hm; exact h⟩
  | cons piece pieces ih =>
      rw [List.cons_append, walk_cons]
      simp only [walk_cons, ih]
      constructor
      · rintro ⟨first, hfirst, middle, hmiddle, h⟩
        exact ⟨middle, ⟨first, hfirst, hmiddle⟩, h⟩
      · rintro ⟨middle, ⟨first, hfirst, hmiddle⟩, h⟩
        exact ⟨first, hfirst, middle, hmiddle, h⟩

theorem Grows.walk (h : Grows d e) (hw : d.walk place pieces = .ok next) :
    e.walk place pieces = .ok next := by
  induction pieces generalizing place with
  | nil => exact hw
  | cons piece pieces ih =>
      obtain ⟨middle, hs, hw⟩ := walk_cons.1 hw
      exact walk_cons.2 ⟨middle, h.step hs, ih hw⟩

theorem locate_eq_ok : d.locate path = .ok place ↔
    path ≠ [] ∧ Text.byteSize path ≤ longestPath ∧
      d.walk (d.startOf path) (Text.splitAt '/' path) = .ok place := by
  unfold Disk.locate
  split_ifs with hempty hsize
  · exact ⟨nofun, fun h => absurd hempty h.1⟩
  · exact ⟨nofun, fun h => absurd hsize (Nat.not_lt.2 h.2.1)⟩
  · exact ⟨fun h => ⟨hempty, Nat.le_of_not_lt hsize, h⟩, fun h => h.2.2⟩

theorem Grows.locate (h : Grows d e) (hl : d.locate path = .ok place) :
    e.locate path = .ok place := by
  obtain ⟨hne, hsize, hwalk⟩ := locate_eq_ok.1 hl
  refine locate_eq_ok.2 ⟨hne, hsize, ?_⟩
  rw [startOf, h.home]
  exact h.walk hwalk

theorem walk_empty (h : d.item? place = some .directory) {tail : List Text}
    (htail : ∀ piece ∈ tail, piece = []) : d.walk place tail = .ok place := by
  induction tail with
  | nil => rfl
  | cons piece tail ih =>
      obtain ⟨rfl, hrest⟩ := List.forall_mem_cons.1 htail
      exact walk_cons.2 ⟨place, step_eq_ok.2 ⟨h, .empty⟩, ih hrest⟩

theorem isDirectory_iff : d.isDirectory path = true ↔
    ∃ place, d.locate path = .ok place ∧ d.item? place = some .directory := by
  unfold isDirectory itemAt?
  cases d.locate path with
  | error fault => exact ⟨nofun, nofun⟩
  | ok place =>
      simp only [Except.toOption, Option.bind_some, Except.ok.injEq, exists_eq_left']
      split <;> simp_all

theorem isFile_iff : d.isFile path = true ↔
    ∃ place content, d.locate path = .ok place ∧ d.item? place = some (.file content) := by
  unfold isFile itemAt?
  cases d.locate path with
  | error fault => exact ⟨nofun, nofun⟩
  | ok place =>
      simp only [Except.toOption, Option.bind_some, Except.ok.injEq, exists_and_left,
        exists_eq_left']
      split <;> simp_all

theorem read_of_file {content : ByteArray} (hl : d.locate path = .ok place)
    (hf : d.item? place = some (.file content)) : d.read path = .ok content := by
  simp only [read, hl, hf]

def follow (place : Place) : Path.Component → Place
  | .root | .current => place
  | .parent => place.dropLast
  | .name s => place ++ [s]

theorem walk_eq_follow (h : d.walk place pieces = .ok next) :
    next = (pieces.filterMap Path.ofPiece).foldl follow place := by
  induction pieces generalizing place with
  | nil =>
      cases h
      rfl
  | cons piece pieces ih =>
      obtain ⟨middle, hstep, hwalk⟩ := walk_cons.1 h
      obtain ⟨-, hleads⟩ := step_eq_ok.1 hstep
      rw [ih hwalk]
      cases hleads with
      | empty => rfl
      | here => rfl
      | up => rfl
      | down hnamed _ _ =>
          obtain ⟨hhere, hup⟩ := isStep_eq_false.1 hnamed
          rw [List.filterMap_cons, Path.ofPiece, if_neg hhere, if_neg hup]
          rfl

theorem foldl_components (path : Text) (place : Place) : (Path.components path).foldl follow place =
    ((Text.splitAt '/' path).filterMap Path.ofPiece).foldl follow place := by
  rw [Path.components, List.foldl_append]
  split_ifs <;> rfl

/-- Paths with the same components lead to the same place. -/
theorem locate_eq_of_components {q : Text} (h : Path.components path = Path.components q)
    (hp : d.locate path = .ok place) (hq : d.locate q = .ok next) : place = next := by
  have hfollow {p : Text} {place : Place} (hp : d.locate p = .ok place) :
      place = (Path.components p).foldl follow (d.startOf p) := by
    obtain ⟨-, -, hwalk⟩ := locate_eq_ok.1 hp
    rw [walk_eq_follow hwalk, foldl_components]
  have hstart : d.startOf path = d.startOf q := by
    have habsolute : Path.isAbsolute path = Path.isAbsolute q := by
      rw [Bool.eq_iff_iff, ← Path.root_mem_components, ← Path.root_mem_components, h]
    rw [startOf, habsolute]
    rfl
  rw [hfollow hp, hfollow hq, h, hstart]

end Walking

section Writing

theorem write_eq_ok {content : ByteArray} : d.write path content = .ok e ↔
    ∃ parent name, d.locateParent path (Text.splitAt '/' path) = .ok (parent, name) ∧
      isStep name = false ∧ Text.byteSize name ≤ longestName ∧
      d.item? (parent ++ [name]) ≠ some .directory ∧
      e = d.put (parent ++ [name]) (.file content) := by
  unfold write
  cases d.locateParent path (Text.splitAt '/' path) with
  | error fault => exact ⟨nofun, fun ⟨_, _, h, _⟩ => nomatch h⟩
  | ok found =>
      obtain ⟨parent, name⟩ := found
      constructor
      · intro h
        simp only at h
        split_ifs at h with hnamed hsize
        split at h
        · cases h
        · next hfree =>
          exact ⟨parent, name, rfl, Bool.eq_false_iff.2 hnamed, Nat.le_of_not_lt hsize, hfree,
            (Except.ok.inj h).symm⟩
      · rintro ⟨_, _, ⟨⟩, hnamed, hsize, hfree, rfl⟩
        simp only [hnamed, if_neg (Nat.not_lt.2 hsize), Bool.false_eq_true, if_false]

theorem grows_write {content : ByteArray} (h : d.write path content = .ok e) : Grows d e := by
  obtain ⟨parent, name, -, -, -, hfree, rfl⟩ := write_eq_ok.1 h
  exact grows_put hfree content

end Writing

section Joining

theorem byteSize_append (s t : Text) :
    Text.byteSize (s ++ t) = Text.byteSize s + Text.byteSize t := by
  induction s with
  | nil => rw [List.nil_append, Text.byteSize, Nat.zero_add]
  | cons c s ih => rw [List.cons_append, Text.byteSize, Text.byteSize, ih, Nat.add_assoc]

theorem isAbsolute_append (hne : path ≠ []) (s : Text) :
    Path.isAbsolute (path ++ s) = Path.isAbsolute path := by
  cases path with
  | nil => exact absurd rfl hne
  | cons c path => rfl

theorem isAbsolute_of_not_mem (h : '/' ∉ name) : Path.isAbsolute name = false := by
  cases name with
  | nil => rfl
  | cons c name => exact decide_eq_false fun hc => h (Option.some.inj hc ▸ List.mem_cons_self)

theorem join_cases (hne : path ≠ []) (hname : '/' ∉ name) :
    (∃ front, path = front ++ "/" ∧ Path.join path name = front ++ '/' :: name) ∨
      Path.join path name = path ++ '/' :: name := by
  unfold Path.join
  rw [if_neg (by simp [isAbsolute_of_not_mem hname, hne])]
  split_ifs with hlast
  · obtain ⟨front, rfl⟩ := List.getLast?_eq_some_iff.1 hlast
    exact .inl ⟨front, rfl, List.append_assoc ..⟩
  · exact .inr (List.append_assoc ..)

theorem splitAt_join (hne : path ≠ []) (hname : '/' ∉ name) :
    ∃ pieces, Text.splitAt '/' (Path.join path name) = pieces ++ [name] ∧
      (Text.splitAt '/' path = pieces ∨ Text.splitAt '/' path = pieces ++ [[]]) := by
  obtain ⟨front, rfl, hjoin⟩ | hjoin := join_cases hne hname
  · refine ⟨Text.splitAt '/' front, ?_, .inr (Text.splitAt_append_cons '/' front [])⟩
    rw [hjoin, Text.splitAt_append_cons, Text.splitAt_of_not_mem hname]
  · refine ⟨Text.splitAt '/' path, ?_, .inl rfl⟩
    rw [hjoin, Text.splitAt_append_cons, Text.splitAt_of_not_mem hname]

theorem join_ne_nil (hne : path ≠ []) (hname : '/' ∉ name) : Path.join path name ≠ [] := by
  obtain ⟨front, -, hjoin⟩ | hjoin := join_cases hne hname <;> rw [hjoin] <;> simp

theorem byteSize_join_le {other : Text} (hname : '/' ∉ name) (hother : '/' ∉ other)
    (h : Text.byteSize name ≤ Text.byteSize other) :
    Text.byteSize (Path.join path name) ≤ Text.byteSize (Path.join path other) := by
  unfold Path.join
  simp only [isAbsolute_of_not_mem hname, isAbsolute_of_not_mem hother, Bool.false_eq_true, false_or]
  split_ifs
  · exact h
  · rw [byteSize_append _ name, byteSize_append _ other]
    exact Nat.add_le_add_left h _
  · rw [byteSize_append _ name, byteSize_append _ other]
    exact Nat.add_le_add_left h _

theorem startOf_join (hne : path ≠ []) (hname : '/' ∉ name) :
    d.startOf (Path.join path name) = d.startOf path := by
  have habsolute : Path.isAbsolute (Path.join path name) = Path.isAbsolute path := by
    obtain ⟨front, rfl, hjoin⟩ | hjoin := join_cases hne hname
    · rw [hjoin]
      cases front <;> rfl
    · rw [hjoin, isAbsolute_append hne]
  rw [startOf, habsolute]
  rfl

variable (hl : d.locate path = .ok place)
include hl

theorem walk_of_locate {pieces : List Text}
    (h : Text.splitAt '/' path = pieces ∨ Text.splitAt '/' path = pieces ++ [[]]) :
    d.walk (d.startOf path) pieces = .ok place := by
  obtain ⟨-, -, hwalk⟩ := locate_eq_ok.1 hl
  rcases h with h | h
  · rwa [h] at hwalk
  · rw [h, walk_append] at hwalk
    obtain ⟨middle, hmiddle, hlast⟩ := hwalk
    obtain ⟨last, hstep, hend⟩ := walk_cons.1 hlast
    have hlast : last = middle := by
      obtain ⟨-, hleads⟩ := step_eq_ok.1 hstep
      cases hleads with
      | empty => rfl
      | down hnamed _ _ => exact absurd rfl (not_or.1 (isStep_eq_false.1 hnamed).1).1
    cases hend
    exact hlast ▸ hmiddle

theorem locateParent_join (hname : '/' ∉ name) (hd : d.item? place = some .directory)
    {found : Place × Text} :
    d.locateParent (Path.join path name) (Text.splitAt '/' (Path.join path name)) = .ok found ↔
      Text.byteSize (Path.join path name) ≤ longestPath ∧ found = (place, name) := by
  have hne := (locate_eq_ok.1 hl).1
  obtain ⟨pieces, hjoin, hpieces⟩ := splitAt_join hne hname
  have hwalk := walk_of_locate hl hpieces
  have hhere : d.step place "." = .ok place := step_eq_ok.2 ⟨hd, .here⟩
  rw [locateParent, hjoin, List.dropLast_concat, startOf_join hne hname, hwalk]
  simp only [hhere, List.getLast?_concat, Option.getD_some]
  split_ifs with hsize
  · exact ⟨nofun, fun h => absurd hsize (Nat.not_lt.2 h.1)⟩
  · exact ⟨fun h => ⟨Nat.le_of_not_lt hsize, (Except.ok.inj h).symm⟩, fun h => h.2 ▸ rfl⟩

theorem write_join_eq_ok (hname : '/' ∉ name) (hd : d.item? place = some .directory)
    {content : ByteArray} : d.write (Path.join path name) content = .ok e ↔
      Text.byteSize (Path.join path name) ≤ longestPath ∧ isStep name = false ∧
        Text.byteSize name ≤ longestName ∧ d.item? (place ++ [name]) ≠ some .directory ∧
        e = d.put (place ++ [name]) (.file content) := by
  rw [write_eq_ok]
  constructor
  · rintro ⟨parent, piece, hparent, hrest⟩
    obtain ⟨hpath, hfound⟩ := (locateParent_join hl hname hd).1 hparent
    cases hfound
    exact ⟨hpath, hrest⟩
  · rintro ⟨hpath, hrest⟩
    exact ⟨place, name, (locateParent_join hl hname hd).2 ⟨hpath, rfl⟩, hrest⟩

variable (hname : '/' ∉ name) (hpath : Text.byteSize (Path.join path name) ≤ longestPath)
include hname hpath

theorem locate_join : d.locate (Path.join path name) = .ok next ↔ d.step place name = .ok next := by
  have hne := (locate_eq_ok.1 hl).1
  obtain ⟨pieces, hjoin, hpieces⟩ := splitAt_join hne hname
  have hwalk := walk_of_locate hl hpieces
  rw [locate_eq_ok, hjoin, startOf_join hne hname, walk_append]
  constructor
  · rintro ⟨-, -, middle, hmiddle, hlast⟩
    rw [hwalk] at hmiddle
    cases hmiddle
    obtain ⟨last, hstep, hend⟩ := walk_cons.1 hlast
    cases hend
    exact hstep
  · exact fun hstep => ⟨join_ne_nil hne hname, hpath, place, hwalk, walk_cons.2 ⟨next, hstep, rfl⟩⟩

variable (hd : d.item? place = some .directory) (hnamed : isStep name = false)
  (hsize : Text.byteSize name ≤ longestName)
include hd hnamed hsize

theorem locate_join_of_isSome (h : (d.item? (place ++ [name])).isSome) :
    d.locate (Path.join path name) = .ok (place ++ [name]) :=
  (locate_join hl hname hpath).2 (step_eq_ok.2 ⟨hd, .down hnamed hsize h⟩)

theorem itemAt?_join : d.itemAt? (Path.join path name) = d.item? (place ++ [name]) := by
  unfold itemAt?
  cases h : d.item? (place ++ [name]) with
  | some item =>
      rw [locate_join_of_isSome hl hname hpath hd hnamed hsize (by rw [h]; rfl)]
      exact h
  | none =>
      cases hlocate : d.locate (Path.join path name) with
      | error fault => rfl
      | ok next =>
          obtain ⟨-, hleads⟩ := step_eq_ok.1 ((locate_join hl hname hpath).1 hlocate)
          cases hleads with
          | empty => exact absurd rfl (not_or.1 (isStep_eq_false.1 hnamed).1).1
          | here => exact absurd rfl (not_or.1 (isStep_eq_false.1 hnamed).1).2
          | up => exact absurd rfl (isStep_eq_false.1 hnamed).2
          | down _ _ hfound => rw [h] at hfound; cases hfound

/-- A file can be written in a directory unless a directory has its name. -/
theorem write_join (hfree : d.item? (place ++ [name]) ≠ some .directory) (content : ByteArray) :
    d.write (Path.join path name) content = .ok (d.put (place ++ [name]) (.file content)) :=
  (write_join_eq_ok hl hname hd).2 ⟨hpath, hnamed, hsize, hfree, rfl⟩

end Joining

section Making

theorem splitAt_eq_directoryPieces (path : Text) :
    ∃ tail, Text.splitAt '/' path = directoryPieces path ++ tail ∧ ∀ piece ∈ tail, piece = [] := by
  refine ⟨((Text.splitAt '/' path).reverse.takeWhile (· = [])).reverse, ?_, fun piece hpiece => ?_⟩
  · rw [directoryPieces, ← List.reverse_append, List.takeWhile_append_dropWhile,
      List.reverse_reverse]
  · have hempty := List.mem_takeWhile_imp (List.mem_reverse.1 hpiece)
    exact of_decide_eq_true hempty

theorem locateParent_eq_ok {parent : Place}
    (h : d.locateParent path pieces = .ok (parent, name)) :
    Text.byteSize path ≤ longestPath ∧ d.walk (d.startOf path) pieces.dropLast = .ok parent ∧
      d.item? parent = some .directory ∧ pieces.getLast?.getD [] = name := by
  unfold locateParent at h
  split_ifs at h with hsize
  split at h
  · cases h
  next place hwalk =>
    split at h
    · cases h
    next place' hstep =>
      cases h
      obtain ⟨hdirectory, hleads⟩ := step_eq_ok.1 hstep
      cases hleads with
      | here => exact ⟨Nat.le_of_not_lt hsize, hwalk, hdirectory, rfl⟩
      | down hnamed _ _ => exact absurd (.inr rfl) (isStep_eq_false.1 hnamed).1

theorem makeDirectory_eq_put (h : d.makeDirectory path = .ok e) :
    ∃ parent name, d.locateParent path (directoryPieces path) = .ok (parent, name) ∧
      isStep name = false ∧ Text.byteSize name ≤ longestName ∧
      d.item? (parent ++ [name]) = none ∧ e = d.put (parent ++ [name]) .directory := by
  unfold makeDirectory at h
  split at h
  · cases h
  next parent name hparent =>
    split_ifs at h with hnamed hsize hfound
    cases h
    exact ⟨parent, name, hparent, Bool.eq_false_iff.2 hnamed, Nat.le_of_not_lt hsize,
      by simpa using hfound, rfl⟩

theorem eq_dropLast_snoc (h : pieces.getLast?.getD [] = name) (hnamed : isStep name = false) :
    pieces = pieces.dropLast ++ [name] := by
  cases hpiece : pieces.getLast? with
  | none =>
      rw [hpiece] at h
      rw [← h] at hnamed
      cases hnamed
  | some piece =>
      rw [hpiece] at h
      cases h
      obtain ⟨front, rfl⟩ := List.getLast?_eq_some_iff.1 hpiece
      rw [List.dropLast_concat]
      rfl

theorem makeDirectory_eq_ok (h : d.makeDirectory path = .ok e) :
    Adds d e ∧ (path ≠ [] → e.isDirectory path = true) := by
  obtain ⟨parent, name, hparent, hnamed, hsize, hnone, rfl⟩ := makeDirectory_eq_put h
  have hadds := adds_put hnone
  have hmade := item?_put_self (snoc_ne_nil parent name) d .directory
  refine ⟨hadds, fun hne => isDirectory_iff.2 ⟨parent ++ [name], ?_, hmade⟩⟩
  obtain ⟨hpath, hwalk, hdirectory, hname⟩ := locateParent_eq_ok hparent
  obtain ⟨tail, hpieces, htail⟩ := splitAt_eq_directoryPieces path
  have hstep : (d.put (parent ++ [name]) .directory).step parent name = .ok (parent ++ [name]) :=
    step_eq_ok.2 ⟨hadds.kept hdirectory, .down hnamed hsize (by rw [hmade]; rfl)⟩
  refine locate_eq_ok.2 ⟨hne, hpath, ?_⟩
  rw [hpieces, eq_dropLast_snoc hname hnamed, List.append_assoc]
  exact walk_append.2 ⟨parent, hadds.grows.walk hwalk,
    walk_cons.2 ⟨parent ++ [name], hstep, walk_empty hmade htail⟩⟩

theorem ensureDirectory_eq_ok (h : d.ensureDirectory path = .ok e) :
    Adds d e ∧ (path ≠ [] → e.isDirectory path = true) := by
  unfold ensureDirectory at h
  split at h
  · next made hmade =>
    cases h
    exact makeDirectory_eq_ok hmade
  · split_ifs at h with hdirectory
    cases h
    exact ⟨Adds.refl d, fun _ => hdirectory⟩

/-- The first directory is made last, on the disk as it is or with the others on it. -/
theorem ensureFirst_cons {above : List Text} {fault : Option Fault}
    (h : d.ensureFirst (path :: above) = (e, fault)) :
    ∃ made, (made = d ∨ made = (d.ensureFirst above).1) ∧
      (made.ensureDirectory path = .ok e ∧ fault = none ∨ e = made ∧ fault.isSome) := by
  rw [ensureFirst] at h
  split at h
  · split at h
    · next made f habove =>
      cases h
      exact ⟨e, .inr (by rw [habove]), .inr ⟨rfl, rfl⟩⟩
    · next made habove =>
      refine ⟨made, .inr (by rw [habove]), ?_⟩
      split at h <;> cases h
      · next hmade => exact .inl ⟨hmade, rfl⟩
      · exact .inr ⟨rfl, rfl⟩
  · refine ⟨d, .inl rfl, ?_⟩
    split at h <;> cases h
    · next hmade => exact .inl ⟨hmade, rfl⟩
    · exact .inr ⟨rfl, rfl⟩

theorem ensureFirst_keeps {P : Disk → Prop} (paths : List Text) (hd : P d)
    (hmake : ∀ {d e : Disk} {path : Text}, path ∈ paths → P d →
      d.ensureDirectory path = .ok e → P e) :
    P (d.ensureFirst paths).1 := by
  induction paths with
  | nil => exact hd
  | cons path above ih =>
      have habove : P (d.ensureFirst above).1 :=
        ih fun hmem => hmake (List.mem_cons_of_mem path hmem)
      rcases h : d.ensureFirst (path :: above) with ⟨e, fault⟩
      obtain ⟨made, hstart, hend⟩ := ensureFirst_cons h
      have hmade : P made := by
        rcases hstart with rfl | rfl
        · exact hd
        · exact habove
      rcases hend with ⟨hensured, -⟩ | ⟨rfl, -⟩
      · exact hmake List.mem_cons_self hmade hensured
      · exact hmade

theorem adds_ensureFirst (paths : List Text) (d : Disk) : Adds d (d.ensureFirst paths).1 :=
  ensureFirst_keeps paths (Adds.refl d) fun _ hadds hensured =>
    hadds.trans (ensureDirectory_eq_ok hensured).1

theorem isDirectory_ensureFirst {above : List Text} (hne : path ≠ [])
    (h : d.ensureFirst (path :: above) = (e, none)) : e.isDirectory path = true := by
  obtain ⟨made, -, ⟨hensured, -⟩ | ⟨-, hfault⟩⟩ := ensureFirst_cons h
  · exact (ensureDirectory_eq_ok hensured).2 hne
  · cases hfault

/-- Making the directories of a path leaves all files as they are, and the path leads to a
directory. -/
theorem ensureAll_eq_none (hne : path ≠ []) (h : d.ensureAll path = (e, none)) :
    Adds d e ∧ e.isDirectory path = true := by
  obtain ⟨above, habove⟩ : ∃ above, Path.ancestors path = path :: above := by
    unfold Path.ancestors
    split
    · next hnil => exact absurd hnil (Path.components_ne_nil hne)
    · exact ⟨_, rfl⟩
  rw [ensureAll, habove] at h
  have hadds := adds_ensureFirst (path :: above) d
  rw [h] at hadds
  exact ⟨hadds, isDirectory_ensureFirst hne h⟩

end Making
end ApiDocs.Files.Disk
