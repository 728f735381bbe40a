import ApiDocs.Namespace.Forest
import Mathlib.Tactic.Tauto

namespace ApiDocs.Forest

def beginnings (above : Option Text) : List Text → List Text
  | [] => []
  | part :: parts => dotted above part :: beginnings (some (dotted above part)) parts

/-- `q` ends where `s` ends or in front of a dot of it. -/
def Begins (q s : Text) : Prop := q ++ ['.'] <+: s ++ ['.']

def fullNames : Forest → List Text
  | nil => []
  | node _ fullName children siblings => fullName :: children.fullNames ++ siblings.fullNames

/-- Every node is named after the node above it. -/
def Rooted : Forest → Option Text → Prop
  | nil, _ => True
  | node name fullName children siblings, above =>
      fullName = dotted above name ∧ children.Rooted (some fullName) ∧ siblings.Rooted above

variable {f : Forest} {above : Option Text}

theorem map_fullName_linesFrom (f : Forest) (depth : Nat) :
    (f.linesFrom depth).map (·.fullName) = f.fullNames := by
  induction f generalizing depth with
  | nil => rfl
  | node name fullName children siblings ihc ihs =>
      simp only [linesFrom, fullNames, List.cons_append, List.map_cons, List.map_append, ihc, ihs]

theorem map_fullName_lines (f : Forest) : f.lines.map (·.fullName) = f.fullNames :=
  f.map_fullName_linesFrom 0

theorem fullNames_branch (above : Option Text) (parts : List Text) :
    (branch above parts).fullNames = beginnings above parts := by
  induction parts generalizing above with
  | nil => rfl
  | cons part parts ih => simp [branch, fullNames, beginnings, ih]

theorem rooted_branch (above : Option Text) (parts : List Text) :
    (branch above parts).Rooted above := by
  induction parts generalizing above with
  | nil => exact trivial
  | cons part parts ih => exact ⟨rfl, ih _, trivial⟩

theorem Rooted.insert (h : f.Rooted above) (parts : List Text) :
    (f.insert above parts).Rooted above := by
  induction f generalizing above parts with
  | nil => exact rooted_branch above parts
  | node name fullName children siblings ihc ihs =>
      obtain ⟨rfl, hc, hs⟩ := h
      cases parts with
      | nil => exact ⟨rfl, hc, hs⟩
      | cons part parts =>
          by_cases hn : name = part
          · subst hn
            rw [Forest.insert, if_pos rfl]
            exact ⟨rfl, ihc hc parts, hs⟩
          · rw [Forest.insert, if_neg hn]
            exact ⟨rfl, hc, ihs hs _⟩

theorem mem_fullNames_insert (h : f.Rooted above) (parts : List Text) (q : Text) :
    q ∈ (f.insert above parts).fullNames ↔ q ∈ f.fullNames ∨ q ∈ beginnings above parts := by
  induction f generalizing above parts with
  | nil =>
      rw [Forest.insert, fullNames_branch]
      simp [fullNames]
  | node name fullName children siblings ihc ihs =>
      obtain ⟨rfl, hc, hs⟩ := h
      cases parts with
      | nil => simp [Forest.insert, beginnings]
      | cons part parts =>
          by_cases hn : name = part
          · subst hn
            rw [Forest.insert, if_pos rfl]
            simp only [fullNames, beginnings, List.cons_append, List.mem_cons, List.mem_append,
              ihc hc parts]
            tauto
          · rw [Forest.insert, if_neg hn]
            simp only [fullNames, List.cons_append, List.mem_cons, List.mem_append, ihs hs]
            tauto

theorem mem_fullNames_foldl (h : f.Rooted none) (nameSpaces : List Text) (q : Text) :
    q ∈ (nameSpaces.foldl add f).fullNames ↔
      q ∈ f.fullNames ∨ ∃ s ∈ nameSpaces, q ∈ beginnings none (Text.splitAt '.' s) := by
  induction nameSpaces generalizing f with
  | nil => simp
  | cons s nameSpaces ih =>
      rw [List.foldl_cons, add, ih (h.insert _), mem_fullNames_insert h]
      simp only [List.mem_cons, exists_eq_or_imp, or_assoc]

theorem beginnings_append (u v : Text) (parts : List Text) :
    beginnings (some (u ++ v)) parts = (beginnings (some v) parts).map (u ++ ·) := by
  induction parts generalizing v with
  | nil => rfl
  | cons part parts ih =>
      have he : dotted (some (u ++ v)) part = u ++ dotted (some v) part := by simp [dotted]
      rw [beginnings, beginnings, he, ih, List.map_cons]

theorem beginnings_some (u : Text) (parts : List Text) :
    beginnings (some u) parts = (beginnings none parts).map ((u ++ ".") ++ ·) := by
  cases parts with
  | nil => rfl
  | cons part parts =>
      rw [beginnings, beginnings, List.map_cons]
      exact congrArg _ (beginnings_append _ _ _)

theorem begins_nil (q : Text) : Begins q [] ↔ q = [] := by
  constructor
  · intro h
    have hl := h.length_le
    simp only [List.length_append, List.length_nil] at hl
    exact List.eq_nil_of_length_eq_zero (by omega)
  · rintro rfl
    exact List.prefix_refl _

theorem begins_cons (q : Text) (c : Char) (s : Text) :
    Begins q (c :: s) ↔ (q = [] ∧ c = '.') ∨ ∃ q', q = c :: q' ∧ Begins q' s := by
  unfold Begins
  cases q with
  | nil => simp [List.cons_prefix_cons, eq_comm]
  | cons d q =>
      simp only [List.cons_append, List.cons_prefix_cons, List.cons_ne_nil, false_and, false_or,
        List.cons.injEq]
      constructor
      · rintro ⟨rfl, h⟩
        exact ⟨q, ⟨rfl, rfl⟩, h⟩
      · rintro ⟨q', ⟨rfl, rfl⟩, h⟩
        exact ⟨rfl, h⟩

theorem mem_beginnings_splitAt (q s : Text) :
    q ∈ beginnings none (Text.splitAt '.' s) ↔ Begins q s := by
  unfold Text.splitAt
  induction s generalizing q with
  | nil => simp [Text.pieces, beginnings, dotted, begins_nil]
  | cons c s ih =>
      rw [begins_cons]
      unfold Text.pieces
      by_cases hc : c = '.'
      · subst hc
        rw [if_pos (by decide), beginnings, beginnings_some]
        simp [dotted, ih, eq_comm, and_comm]
      · rw [if_neg (by simpa using hc)]
        cases hp : Text.pieces (· == '.') s with
        | nil => exact absurd hp (Text.pieces_ne_nil _ s)
        | cons piece rest =>
            have hb : beginnings none ((c :: piece) :: rest) =
                (beginnings none (piece :: rest)).map (c :: ·) :=
              congrArg _ (beginnings_append [c] piece rest)
            simp [hb, ← hp, ih, hc, eq_comm, and_comm]

theorem mem_fullNames_ofNamespaces (nameSpaces : List Text) (q : Text) :
    q ∈ (ofNamespaces nameSpaces).fullNames ↔ ∃ s ∈ nameSpaces, Begins q s := by
  have h : Forest.nil.Rooted none := trivial
  rw [ofNamespaces, mem_fullNames_foldl h]
  simp [fullNames, mem_beginnings_splitAt]

end ApiDocs.Forest
