import ApiDocs.Command.Reach
import ApiDocs.Proofs.Files.Disk

namespace ApiDocs

namespace Path

section Beginnings

variable {path piece q : Text} {pieces : List Text} {c : Component} {l cs : List Component}

theorem text_of_ofPiece (h : ofPiece piece = some c) : c.text = piece := by
  unfold ofPiece at h
  split_ifs at h with hhere hup
  · cases h
    exact hup.symm
  · cases h
    rfl

/-- Each component is read from its text, which is a single piece of a path. -/
def Plain (cs : List Component) : Prop := ∀ c ∈ cs, ofPiece c.text = some c ∧ '/' ∉ c.text

theorem plain_pieces (path : Text) : Plain ((Text.splitAt '/' path).filterMap ofPiece) := by
  intro c hc
  obtain ⟨piece, hpiece, hread⟩ := List.mem_filterMap.1 hc
  rw [text_of_ofPiece hread]
  exact ⟨hread, Text.not_mem_of_mem_splitAt piece hpiece⟩

theorem Plain.of_prefix (h : Plain cs) (hl : l <+: cs) : Plain l := fun c hc => h c (hl.subset hc)

theorem Plain.filterMap_ofPiece (h : Plain cs) : (cs.map Component.text).filterMap ofPiece = cs := by
  rw [List.filterMap_map]
  refine (List.filterMap_congr fun c hc => ?_).trans List.filterMap_some
  exact (h c hc).1

theorem Plain.slash_not_mem (h : Plain cs) : ∀ piece ∈ cs.map Component.text, '/' ∉ piece := by
  intro piece hpiece
  obtain ⟨c, hc, rfl⟩ := List.mem_map.1 hpiece
  exact (h c hc).2

theorem splitAt_joinPieces (h : ∀ p ∈ piece :: pieces, '/' ∉ p) :
    Text.splitAt '/' (Text.joinWith "/" (piece :: pieces)) = piece :: pieces :=
  Text.splitAt_joinWith (List.cons_ne_nil _ _) h

theorem isAbsolute_joinWith (hne : piece ≠ []) (hslash : '/' ∉ piece) (pieces : List Text) :
    isAbsolute (Text.joinWith "/" (piece :: pieces)) = false := by
  obtain ⟨c, rest, rfl⟩ := List.exists_cons_of_ne_nil hne
  have hfirst : ¬ some c = some '/' := fun h => hslash (Option.some.inj h ▸ List.mem_cons_self)
  cases pieces with
  | nil => exact decide_eq_false hfirst
  | cons next pieces => exact decide_eq_false hfirst

theorem components_joinWith (hne : piece ≠ []) (hslash : ∀ p ∈ piece :: pieces, '/' ∉ p) :
    components (Text.joinWith "/" (piece :: pieces)) =
      (if piece = "." then [.current] else []) ++ (piece :: pieces).filterMap ofPiece := by
  rw [components, splitAt_joinPieces hslash,
    isAbsolute_joinWith hne (hslash piece List.mem_cons_self)]
  simp only [Bool.false_eq_true, if_false, List.head?_cons, Option.bind_eq_bind, Option.bind_some,
    Option.pure_def, Option.some.injEq]

theorem components_ofComponents (hl : l <+: components path) (hne : l ≠ []) :
    components (ofComponents l) = l := by
  obtain ⟨c, cs, rfl⟩ := List.exists_cons_of_ne_nil hne
  have hplain := plain_pieces path
  unfold components at hl
  simp only at hl
  -- The path begins with a slash, with a dot, or with neither.
  split_ifs at hl with habsolute hhere
  · obtain ⟨rfl, hcs⟩ := List.cons_prefix_cons.1 hl
    have hcs := hplain.of_prefix hcs
    have hpieces : (Text.splitAt '/' (Text.joinWith "/" (cs.map Component.text))).filterMap
        ofPiece = cs := by
      cases cs with
      | nil => rfl
      | cons c cs =>
          rw [List.map_cons, splitAt_joinPieces hcs.slash_not_mem]
          exact hcs.filterMap_ofPiece
    rw [ofComponents, components, Text.splitAt_cons_self]
    exact congrArg (Component.root :: ·) hpieces
  · obtain ⟨rfl, hcs⟩ := List.cons_prefix_cons.1 hl
    have hcs := hplain.of_prefix hcs
    have hslash : ∀ p ∈ Component.current.text :: cs.map Component.text, '/' ∉ p :=
      List.forall_mem_cons.2 ⟨by decide, hcs.slash_not_mem⟩
    refine (components_joinWith (List.cons_ne_nil _ _) hslash).trans ?_
    exact congrArg (Component.current :: ·) hcs.filterMap_ofPiece
  · have hcs := hplain.of_prefix hl
    obtain ⟨hread, -⟩ := hcs c List.mem_cons_self
    have hempty : c.text ≠ [] := fun h => by rw [h] at hread; cases hread
    have hdot : c.text ≠ "." := fun h => by rw [h] at hread; cases hread
    have hwritten : ofComponents (c :: cs) = Text.joinWith "/" (c.text :: cs.map Component.text) := by
      cases c with
      | root => exact absurd hread (ofPiece_ne_root _)
      | _ => rfl
    rw [hwritten, components_joinWith hempty hcs.slash_not_mem, if_neg hdot]
    exact hcs.filterMap_ofPiece

theorem isAbsolute_of_prefix (h : components q <+: components path) (hne : components q ≠ []) :
    isAbsolute q = isAbsolute path := by
  rw [Bool.eq_iff_iff, ← root_mem_components, ← root_mem_components]
  refine ⟨fun hroot => h.subset hroot, fun hroot => ?_⟩
  obtain ⟨c, cs, hq⟩ := List.exists_cons_of_ne_nil hne
  have hfirst : ∃ rest, components path = .root :: rest := by
    rw [root_mem_components] at hroot
    exact ⟨_, by rw [components, hroot]; rfl⟩
  obtain ⟨rest, hrest⟩ := hfirst
  rw [hq, hrest] at h
  rw [hq, (List.cons_prefix_cons.1 h).1]
  exact List.mem_cons_self

theorem prefix_of_mem_ancestors (h : q ∈ ancestors path) :
    components q <+: components path ∧ isAbsolute q = isAbsolute path := by
  unfold ancestors at h
  split at h
  · cases h
  · next hne =>
    have hbegins : components q <+: components path ∧ components q ≠ [] := by
      rcases List.mem_cons.1 h with rfl | h
      · exact ⟨List.prefix_refl _, hne⟩
      · obtain ⟨n, -, rfl⟩ := List.mem_map.1 h
        have htake : (components path).take (n + 1) ≠ [] := by
          simpa using hne
        have hl := List.take_prefix (n + 1) (components path)
        rw [components_ofComponents hl htake]
        exact ⟨hl, htake⟩
    exact ⟨hbegins.1, isAbsolute_of_prefix hbegins.1 hbegins.2⟩

end Beginnings
end Path

namespace Command

open Files Disk

section Along

variable {home place : Place} {path : Text} {l : List Path.Component}

theorem placeFrom_eq (place : Place) (pieces : List Text) :
    placeFrom place pieces = (pieces.filterMap Path.ofPiece).foldl follow place := by
  induction pieces generalizing place with
  | nil => rfl
  | cons piece pieces ih =>
      rw [placeFrom, List.filterMap_cons, Path.ofPiece]
      split_ifs with hhere hup
      · exact ih place
      · exact ih place.dropLast
      · exact ih (place ++ [piece])

theorem mem_placesAlong : place ∈ placesAlong home path ↔
    ∃ front, front <+: Text.splitAt '/' path ∧ placeFrom (startPlace home path) front = place := by
  unfold placesAlong
  simp only [List.mem_map, List.mem_range]
  constructor
  · rintro ⟨n, -, rfl⟩
    exact ⟨_, List.take_prefix n _, rfl⟩
  · rintro ⟨front, hfront, rfl⟩
    refine ⟨front.length, Nat.lt_succ_of_le hfront.length_le, ?_⟩
    rw [← List.prefix_iff_eq_take.1 hfront]

theorem follow_mem_placesAlong (h : l <+: Path.components path) :
    l.foldl follow (startPlace home path) ∈ placesAlong home path := by
  have hpieces {cs : List Path.Component}
      (hcs : cs <+: (Text.splitAt '/' path).filterMap Path.ofPiece) :
      cs.foldl follow (startPlace home path) ∈ placesAlong home path := by
    obtain ⟨rest, hrest⟩ := hcs
    obtain ⟨front, back, hsplit, rfl, -⟩ := List.filterMap_eq_append_iff.1 hrest.symm
    exact mem_placesAlong.2 ⟨front, ⟨back, hsplit.symm⟩, placeFrom_eq _ _⟩
  -- A leading root or dot leads nowhere, so it may be left out.
  unfold Path.components at h
  simp only at h
  split_ifs at h
  · obtain rfl | ⟨cs, rfl, hcs⟩ := List.prefix_cons_iff.1 h
    · exact hpieces List.nil_prefix
    · exact (hpieces hcs :)
  · obtain rfl | ⟨cs, rfl, hcs⟩ := List.prefix_cons_iff.1 h
    · exact hpieces List.nil_prefix
    · exact (hpieces hcs :)
  · exact hpieces h

end Along
end Command

namespace Files.Disk

open Command (placesAlong startPlace follow_mem_placesAlong)

variable {d e f : Disk} {path q : Text}

/-- Directories may have come along a path, and nothing else has changed. -/
structure Opens (path : Text) (d e : Disk) : Prop where
  adds : Adds d e
  along : ∀ place, e.item? place = some .directory →
    d.item? place = some .directory ∨ place ∈ placesAlong d.home path

theorem Opens.refl (path : Text) (d : Disk) : Opens path d d :=
  ⟨Adds.refl d, fun _ hplace => .inl hplace⟩

theorem directory_of_makeDirectory (h : d.makeDirectory path = .ok e) {place : Place}
    (hplace : e.item? place = some .directory) : d.item? place = some .directory ∨
      place = (Path.components path).foldl follow (d.startOf path) := by
  obtain ⟨parent, name, hparent, hnamed, -, -, rfl⟩ := makeDirectory_eq_put h
  obtain ⟨-, hwalk, -, hname⟩ := locateParent_eq_ok hparent
  obtain ⟨tail, hpieces, htail⟩ := splitAt_eq_directoryPieces path
  have hread : Path.ofPiece name = some (.name name) := by
    obtain ⟨hhere, hup⟩ := isStep_eq_false.1 hnamed
    rw [Path.ofPiece, if_neg hhere, if_neg hup]
  have hnone : tail.filterMap Path.ofPiece = [] := by
    refine List.filterMap_eq_nil_iff.2 fun piece hpiece => ?_
    rw [htail piece hpiece]
    rfl
  have hfollow : (Path.components path).foldl follow (d.startOf path) = parent ++ [name] := by
    rw [foldl_components, hpieces, eq_dropLast_snoc hname hnamed, List.filterMap_append, hnone,
      List.append_nil, List.filterMap_append, List.filterMap_cons_some hread, List.foldl_append,
      ← walk_eq_follow hwalk]
    rfl
  rw [hfollow]
  by_cases hnew : place = parent ++ [name]
  · exact .inr hnew
  · rw [item?_put_of_ne (snoc_ne_nil parent name) hnew] at hplace
    exact .inl hplace

theorem Opens.ensureDirectory (h : Opens path d e) (hq : q ∈ Path.ancestors path)
    (he : e.ensureDirectory q = .ok f) : Opens path d f := by
  refine ⟨h.adds.trans (ensureDirectory_eq_ok he).1, fun place hplace => ?_⟩
  unfold Disk.ensureDirectory at he
  split at he
  · next made hmade =>
    cases he
    rcases directory_of_makeDirectory hmade hplace with hold | hnew
    · exact h.along place hold
    · obtain ⟨hbegins, habsolute⟩ := Path.prefix_of_mem_ancestors hq
      have hstart : e.startOf q = startPlace d.home path := by
        rw [startOf, habsolute, h.adds.home]
        rfl
      rw [hnew, hstart]
      exact .inr (follow_mem_placesAlong hbegins)
  · split_ifs at he
    cases he
    exact h.along place hplace

/-- Making the directories of a path, as far as it gets, makes only such as the path passes. -/
theorem opens_ensureAll (path : Text) (d : Disk) : Opens path d (d.ensureAll path).1 :=
  ensureFirst_keeps _ (Opens.refl path d) fun hq h => h.ensureDirectory hq

end Files.Disk
end ApiDocs
