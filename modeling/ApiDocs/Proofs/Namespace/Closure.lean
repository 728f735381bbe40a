import ApiDocs.Proofs.Namespace.Paths
import ApiDocs.Proofs.Text.Pieces
import Mathlib.Data.List.Nodup
import Mathlib.Data.List.Perm.Basic

namespace ApiDocs.Forest

/-- The joins of the first parts of a namespace, of at least one part. -/
def prefixes (s : Text) : List Text :=
  let parts := Text.splitAt '.' s
  (List.range parts.length).map fun k => Text.joinWith ['.'] (parts.take (k + 1))

def firstWith (nameSpaces : List Text) (q : Text) : Nat :=
  nameSpaces.findIdx fun s => (prefixes s).contains q

def Line.parent? (l : Line) : Option Text := (Text.cutAtLast? '.' l.fullName).map Prod.fst

/-- What the lines of these namespaces are. -/
structure PrefixClosure (nameSpaces : List Text) (lines : List Line) : Prop where
  nodup : (lines.map (·.fullName)).Nodup
  exact : ∀ q, q ∈ lines.map (·.fullName) ↔ ∃ s ∈ nameSpaces, q ∈ prefixes s
  name : ∀ l ∈ lines, (Text.splitAt '.' l.fullName).getLast? = some l.name
  depth : ∀ l ∈ lines, l.depth = l.fullName.count '.'
  /-- The nearest earlier line that is one step less deep. -/
  parent : ∀ earlier l later, lines = earlier ++ l :: later → 0 < l.depth →
    ∃ up, (earlier.filter fun m => m.depth + 1 = l.depth).getLast? = some up ∧
      l.fullName = up.fullName ++ ['.'] ++ l.name
  siblings : lines.Pairwise fun l m => l.parent? = m.parent? →
    l.name ≠ m.name ∧ firstWith nameSpaces l.fullName < firstWith nameSpaces m.fullName

def Line.ofPath (p : List Text) : Line := ⟨p.length - 1, p.getLastD [], Text.joinWith ['.'] p⟩

def fullAbove (above : List Text) : Option Text :=
  if above = [] then none else some (Text.joinWith ['.'] above)

variable {f : Forest} {above p : List Text} {nameSpaces : List Text}

section Lines

theorem dotted_fullAbove (above : List Text) (part : Text) :
    dotted (fullAbove above) part = Text.joinWith ['.'] (above ++ [part]) := by
  unfold fullAbove
  by_cases h : above = []
  · subst h
    rfl
  · rw [if_neg h, Text.joinWith_snoc h]
    rfl

theorem fullAbove_snoc (above : List Text) (part : Text) :
    fullAbove (above ++ [part]) = some (Text.joinWith ['.'] (above ++ [part])) :=
  if_neg (by simp)

theorem ofPath_snoc (above : List Text) (part : Text) :
    Line.ofPath (above ++ [part]) =
      ⟨above.length, part, Text.joinWith ['.'] (above ++ [part])⟩ := by
  simp [Line.ofPath]

theorem linesFrom_eq (h : f.Rooted (fullAbove above)) :
    f.linesFrom above.length = (f.paths above).map Line.ofPath := by
  induction f generalizing above with
  | nil => rfl
  | node name fullName children siblings ihc ihs =>
      obtain ⟨rfl, hc, hs⟩ := h
      rw [dotted_fullAbove, ← fullAbove_snoc] at hc
      have hchildren := ihc hc
      rw [List.length_append, List.length_singleton] at hchildren
      rw [linesFrom, hchildren, ihs hs, dotted_fullAbove, paths, List.map_append, List.map_cons,
        ofPath_snoc]

theorem rooted_foldl (h : f.Rooted none) (nameSpaces : List Text) :
    (nameSpaces.foldl add f).Rooted none := by
  induction nameSpaces generalizing f with
  | nil => exact h
  | cons s nameSpaces ih => exact ih (h.insert _)

theorem lines_ofNamespaces (nameSpaces : List Text) :
    (ofNamespaces nameSpaces).lines = ((ofNamespaces nameSpaces).paths []).map Line.ofPath := by
  have h : Forest.nil.Rooted none := trivial
  exact @linesFrom_eq _ [] (rooted_foldl h nameSpaces)

end Lines

section Parts

structure IsWay (p : List Text) : Prop where
  ne_nil : p ≠ []
  plain : ∀ part ∈ p, '.' ∉ part

theorem isWay_of_beginning {s : Text} (hne : p ≠ []) (h : p <+: Text.splitAt '.' s) : IsWay p :=
  ⟨hne, fun part hpart => Text.not_mem_of_mem_splitAt part (h.subset hpart)⟩

theorem isWay_of_mem (h : p ∈ (ofNamespaces nameSpaces).paths []) : IsWay p := by
  obtain ⟨hne, s, -, hp⟩ := (mem_paths_ofNamespaces nameSpaces p).1 h
  exact isWay_of_beginning hne hp

theorem IsWay.splitAt (h : IsWay p) : Text.splitAt '.' (Text.joinWith ['.'] p) = p :=
  Text.splitAt_joinWith h.ne_nil h.plain

theorem mem_prefixes {q s : Text} :
    q ∈ prefixes s ↔ ∃ p ≠ [], p <+: Text.splitAt '.' s ∧ Text.joinWith ['.'] p = q := by
  rw [prefixes, List.mem_map]
  constructor
  · rintro ⟨k, -, rfl⟩
    refine ⟨_, ?_, List.take_prefix (k + 1) _, rfl⟩
    simp [Text.splitAt_ne_nil]
  · rintro ⟨p, hne, hp, rfl⟩
    have hpos := List.length_pos_iff.2 hne
    refine ⟨p.length - 1, ?_, ?_⟩
    · rw [List.mem_range]
      exact Nat.lt_of_lt_of_le (by omega) hp.length_le
    · rw [Nat.sub_add_cancel hpos, ← List.prefix_iff_eq_take.1 hp]

theorem IsWay.mem_prefixes (h : IsWay p) (s : Text) :
    Text.joinWith ['.'] p ∈ prefixes s ↔ p <+: Text.splitAt '.' s := by
  rw [Forest.mem_prefixes]
  constructor
  · rintro ⟨q, hne, hq, he⟩
    rwa [← h.splitAt, ← he, (isWay_of_beginning hne hq).splitAt]
  · exact fun hp => ⟨p, h.ne_nil, hp, rfl⟩

theorem IsWay.firstWith (h : IsWay p) (nameSpaces : List Text) :
    firstWith nameSpaces (Text.joinWith ['.'] p) = firstThrough nameSpaces p := by
  unfold Forest.firstWith firstThrough
  simp only [List.contains_eq_mem, h.mem_prefixes]

theorem IsWay.snoc (h : IsWay p) : ∃ above part, p = above ++ [part] ∧ '.' ∉ part ∧
    (above ≠ [] → IsWay above) := by
  refine ⟨p.dropLast, p.getLast h.ne_nil, (List.dropLast_append_getLast h.ne_nil).symm, ?_, ?_⟩
  · exact h.plain _ (List.getLast_mem h.ne_nil)
  · exact fun hne => ⟨hne, fun part hpart => h.plain part (List.dropLast_subset p hpart)⟩

theorem parent?_ofPath {part : Text} (h : '.' ∉ part) (above : List Text) :
    (Line.ofPath (above ++ [part])).parent? = fullAbove above := by
  rw [Line.parent?, ofPath_snoc, fullAbove]
  by_cases hnil : above = []
  · subst hnil
    rw [if_pos rfl]
    exact congrArg _ (Text.cutAtLast?_eq_none.2 h)
  · rw [if_neg hnil, Text.joinWith_snoc hnil, List.append_assoc]
    exact congrArg _ (Text.cutAtLast?_append h _)

theorem fullAbove_inj {above' : List Text} (h : above ≠ [] → IsWay above)
    (h' : above' ≠ [] → IsWay above') (he : fullAbove above = fullAbove above') :
    above = above' := by
  unfold fullAbove at he
  by_cases hnil : above = []
  · by_cases hnil' : above' = []
    · rw [hnil, hnil']
    · rw [if_pos hnil, if_neg hnil'] at he
      cases he
  · by_cases hnil' : above' = []
    · rw [if_neg hnil, if_pos hnil'] at he
      cases he
    · rw [if_neg hnil, if_neg hnil', Option.some.injEq] at he
      rw [← (h hnil).splitAt, he, (h' hnil').splitAt]

end Parts

section Closure

variable (nameSpaces)

theorem nodup_paths_ofNamespaces : ((ofNamespaces nameSpaces).paths []).Nodup :=
  (ranked_ofNamespaces nameSpaces).nodup_paths

theorem nodup_fullName_lines : ((ofNamespaces nameSpaces).lines.map (·.fullName)).Nodup := by
  rw [lines_ofNamespaces, List.map_map]
  refine List.Nodup.map_on ?_ (nodup_paths_ofNamespaces nameSpaces)
  intro p hp q hq he
  rw [← (isWay_of_mem hp).splitAt, ← (isWay_of_mem hq).splitAt]
  exact congrArg _ he

theorem mem_fullName_lines (q : Text) :
    q ∈ (ofNamespaces nameSpaces).lines.map (·.fullName) ↔ ∃ s ∈ nameSpaces, q ∈ prefixes s := by
  rw [lines_ofNamespaces, List.map_map, List.mem_map]
  constructor
  · rintro ⟨p, hp, rfl⟩
    obtain ⟨hne, s, hs, hps⟩ := (mem_paths_ofNamespaces nameSpaces p).1 hp
    exact ⟨s, hs, mem_prefixes.2 ⟨p, hne, hps, rfl⟩⟩
  · rintro ⟨s, hs, hq⟩
    obtain ⟨p, hne, hp, rfl⟩ := mem_prefixes.1 hq
    exact ⟨p, (mem_paths_ofNamespaces nameSpaces p).2 ⟨hne, s, hs, hp⟩, rfl⟩

theorem exists_path {l : Line} (h : l ∈ (ofNamespaces nameSpaces).lines) :
    ∃ p, IsWay p ∧ Line.ofPath p = l := by
  rw [lines_ofNamespaces] at h
  obtain ⟨p, hp, rfl⟩ := List.mem_map.1 h
  exact ⟨p, isWay_of_mem hp, rfl⟩

theorem parent_lines {earlier later : List Line} {l : Line}
    (h : (ofNamespaces nameSpaces).lines = earlier ++ l :: later) (hl : 0 < l.depth) :
    ∃ up, (earlier.filter fun m => m.depth + 1 = l.depth).getLast? = some up ∧
      l.fullName = up.fullName ++ ['.'] ++ l.name := by
  rw [lines_ofNamespaces] at h
  obtain ⟨ps, rest, hpaths, rfl, hrest⟩ := List.map_eq_append_iff.1 h
  obtain ⟨p, qs, rfl, rfl, rfl⟩ := List.map_eq_cons_iff.1 hrest
  have hmem (r) (hr : r ∈ ps ++ p :: qs) : IsWay r := isWay_of_mem (hpaths ▸ hr)
  obtain ⟨above, part, rfl, -, -⟩ := (hmem p (by simp)).snoc
  rw [ofPath_snoc] at hl ⊢
  have habove : above ≠ [] := List.length_pos_iff.1 hl
  have hup := parent_paths hpaths hl
  refine ⟨Line.ofPath above, ?_, Text.joinWith_snoc habove _ _⟩
  have hfilter : ps.filter (fun q => (Line.ofPath q).depth + 1 = above.length) =
      ps.filter (·.length = above.length) := by
    apply List.filter_congr
    intro q hq
    have hpos := List.length_pos_iff.2 (hmem q (List.mem_append_left _ hq)).ne_nil
    simp only [Line.ofPath, Nat.sub_add_cancel hpos]
  rw [List.filter_map, Function.comp_def, hfilter, List.getLast?_map, hup]
  rfl

theorem siblings_lines :
    (ofNamespaces nameSpaces).lines.Pairwise fun l m => l.parent? = m.parent? →
      l.name ≠ m.name ∧ firstWith nameSpaces l.fullName < firstWith nameSpaces m.fullName := by
  rw [lines_ofNamespaces, List.pairwise_map]
  refine (ranked_ofNamespaces nameSpaces).pairwise_paths.imp_of_mem ?_
  rintro p q hp hq ⟨hne, hrank⟩ hparent
  have hfirst (r) (hr : r ∈ (ofNamespaces nameSpaces).paths []) :
      firstWith nameSpaces (Line.ofPath r).fullName = firstThrough nameSpaces r :=
    (isWay_of_mem hr).firstWith nameSpaces
  rw [hfirst p hp, hfirst q hq]
  obtain ⟨above, m, rfl, hm, habove⟩ := (isWay_of_mem hp).snoc
  obtain ⟨above', n, rfl, hn, habove'⟩ := (isWay_of_mem hq).snoc
  rw [parent?_ofPath hm, parent?_ofPath hn] at hparent
  obtain rfl := fullAbove_inj habove habove' hparent
  rw [ofPath_snoc, ofPath_snoc]
  exact ⟨fun he => hne (congrArg (above ++ [·]) he), hrank above m n rfl rfl⟩

theorem prefixClosure_lines : PrefixClosure nameSpaces (ofNamespaces nameSpaces).lines where
  nodup := nodup_fullName_lines nameSpaces
  exact := mem_fullName_lines nameSpaces
  name l hl := by
    obtain ⟨p, hp, rfl⟩ := exists_path nameSpaces hl
    obtain ⟨above, part, rfl, -, -⟩ := hp.snoc
    rw [ofPath_snoc, hp.splitAt, List.getLast?_concat]
  depth l hl := by
    obtain ⟨p, hp, rfl⟩ := exists_path nameSpaces hl
    exact (Text.count_joinWith hp.plain).symm
  parent _ _ _ h hl := parent_lines nameSpaces h hl
  siblings := siblings_lines nameSpaces

theorem perm_lines {nameSpaces other : List Text} (h : nameSpaces.Perm other) :
    (ofNamespaces nameSpaces).lines.Perm (ofNamespaces other).lines := by
  rw [lines_ofNamespaces, lines_ofNamespaces]
  apply List.Perm.map
  refine (List.perm_ext_iff_of_nodup (nodup_paths_ofNamespaces _) (nodup_paths_ofNamespaces _)).2 ?_
  intro p
  simp only [mem_paths_ofNamespaces, h.mem_iff]

theorem ofNamespaces_snoc {nameSpaces : List Text} {s q : Text} (hs : s ∈ nameSpaces)
    (hq : q ∈ prefixes s) : ofNamespaces (nameSpaces ++ [q]) = ofNamespaces nameSpaces := by
  obtain ⟨p, hne, hp, rfl⟩ := mem_prefixes.1 hq
  have hmem := (mem_paths_ofNamespaces nameSpaces p).2 ⟨hne, s, hs, hp⟩
  rw [ofNamespaces, List.foldl_append, List.foldl_cons, List.foldl_nil, add,
    (isWay_of_beginning hne hp).splitAt]
  exact (ranked_ofNamespaces nameSpaces).insert_of_mem none hmem

/-- The lines are the prefixes of the namespaces, each once, in the order of a tree. Another order
of the namespaces gives the same lines in another order, and a prefix of a namespace that is already
there adds nothing. -/
theorem lines_prefixes (nameSpaces : List Text) :
    PrefixClosure nameSpaces (ofNamespaces nameSpaces).lines ∧
      (∀ other, nameSpaces.Perm other →
        (ofNamespaces nameSpaces).lines.Perm (ofNamespaces other).lines) ∧
      ∀ s ∈ nameSpaces, ∀ q ∈ prefixes s,
        ofNamespaces (nameSpaces ++ [q]) = ofNamespaces nameSpaces :=
  ⟨prefixClosure_lines nameSpaces, fun _ h => perm_lines h, fun _ hs _ hq => ofNamespaces_snoc hs hq⟩

/-- Unsorted namespaces with empty parts. In another order the same lines stand in another order. -/
theorem lines_prefixes_unsorted :
    let nameSpaces : List Text := ["B.C", "", "A..D", "B"]
    let other : List Text := ["", "A..D", "B", "B.C"]
    let known : Text := "A."
    (ofNamespaces nameSpaces).lines.map (·.fullName) =
        (["B", "B.C", "", "A", "A.", "A..D"] : List String).map String.toList ∧
      nameSpaces.Perm other ∧
      (ofNamespaces nameSpaces).lines.Perm (ofNamespaces other).lines ∧
      ofNamespaces (nameSpaces ++ [known]) = ofNamespaces nameSpaces := by
  intro nameSpaces other known
  have h := lines_prefixes nameSpaces
  have hperm : nameSpaces.Perm other := by decide
  refine ⟨by decide, hperm, h.2.1 other hperm, ?_⟩
  exact h.2.2 "A..D".toList (by decide) known (by decide)

end Closure
end ApiDocs.Forest
