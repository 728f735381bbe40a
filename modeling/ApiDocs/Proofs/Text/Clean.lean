import ApiDocs.Text.Words
import Mathlib.Data.List.Chain

namespace ApiDocs.Text

def Flat (s : Text) : Prop := ∀ c ∈ s, isBlank c = true → c = ' '

structure Clean (s : Text) : Prop where
  flat : Flat s
  first : s.head? ≠ some ' '
  last : s.getLast? ≠ some ' '
  single : s.IsChain fun c d => c = ' ' → d ≠ ' '

variable {s t : Text}

theorem flat_nil : Flat [] := by simp [Flat]

theorem flat_cons_space (h : Flat s) : Flat (' ' :: s) := List.forall_mem_cons.2 ⟨fun _ => rfl, h⟩

theorem flat_cons {c : Char} (hc : isBlank c = false) (h : Flat s) : Flat (c :: s) :=
  List.forall_mem_cons.2 ⟨fun hblank => absurd hblank (by simp [hc]), h⟩

theorem Flat.append (hs : Flat s) (ht : Flat t) : Flat (s ++ t) := by
  intro c hc
  rcases List.mem_append.1 hc with hc | hc
  · exact hs c hc
  · exact ht c hc

theorem clean_nil : Clean [] := ⟨flat_nil, nofun, nofun, .nil⟩

section Cleaning

theorem flat_squeezeFrom (inRun : Bool) (s : Text) : Flat (squeezeFrom inRun s) := by
  induction s generalizing inRun with
  | nil => exact flat_nil
  | cons c s ih =>
      rw [squeezeFrom]
      by_cases hc : isBlank c
      · rw [if_pos hc]
        cases inRun with
        | true => exact ih true
        | false => exact flat_cons_space (ih true)
      · rw [if_neg hc]
        exact flat_cons (Bool.eq_false_iff.2 hc) (ih false)

theorem single_squeezeFrom (inRun : Bool) (s : Text) :
    (squeezeFrom inRun s).IsChain (fun c d => c = ' ' → d ≠ ' ') ∧
      (inRun = true → (squeezeFrom inRun s).head? ≠ some ' ') := by
  induction s generalizing inRun with
  | nil => exact ⟨.nil, nofun⟩
  | cons c s ih =>
      obtain ⟨hafter, hfirst⟩ := ih true
      rw [squeezeFrom]
      by_cases hc : isBlank c
      · rw [if_pos hc]
        cases inRun with
        | true => exact ⟨hafter, hfirst⟩
        | false =>
            refine ⟨List.isChain_cons.2 ⟨?_, hafter⟩, nofun⟩
            rintro d hd - rfl
            exact hfirst rfl hd
      · have hspace : c ≠ ' ' := by
          rintro rfl
          exact hc isBlank_space
        rw [if_neg hc]
        exact ⟨List.isChain_cons.2 ⟨fun _ _ h => absurd h hspace, (ih false).1⟩,
          fun _ h => hspace (Option.some.inj h)⟩

theorem isInfix_trim (s : Text) : trim s <:+: s := by
  have hfirst := (List.dropWhile_suffix isBlank (l := s)).isInfix
  have hlast := (List.dropWhile_suffix isBlank (l := (s.dropWhile isBlank).reverse)).isInfix
  rw [trim, dropEndWhile]
  exact (List.reverse_infix.1 (by rwa [List.reverse_reverse])).trans hfirst

theorem first_dropWhile (p : Char → Bool) (s : Text) {c : Char} (h : c ∈ (s.dropWhile p).head?) :
    p c = false := by
  have hnot := List.head?_dropWhile_not p s
  rw [h] at hnot
  simpa using hnot

theorem last_trim (s : Text) {c : Char} (h : c ∈ (trim s).getLast?) : isBlank c = false := by
  rw [trim, dropEndWhile, List.getLast?_reverse] at h
  exact first_dropWhile _ _ h

theorem first_trim (s : Text) {c : Char} (h : c ∈ (trim s).head?) : isBlank c = false := by
  have hprefix : trim s <+: s.dropWhile isBlank := by
    rw [trim, dropEndWhile, ← List.reverse_suffix, List.reverse_reverse]
    exact List.dropWhile_suffix isBlank
  obtain ⟨rest, hrest⟩ := hprefix
  apply first_dropWhile isBlank s
  rw [← hrest, List.head?_append, h]
  rfl

theorem clean_clean (s : Text) : Clean (clean s) where
  flat c hc := flat_squeezeFrom false s c ((isInfix_trim _).subset hc)
  first h := absurd (first_trim _ h) (by decide)
  last h := absurd (last_trim _ h) (by decide)
  single := by
    obtain ⟨front, back, h⟩ := isInfix_trim (squeeze s)
    have hsingle := (single_squeezeFrom false s).1
    rw [← squeeze, ← h] at hsingle
    exact (List.isChain_append.1 (List.isChain_append.1 hsingle).1).2.1

end Cleaning

section Joining

theorem Clean.lineBreaks_not_mem (h : Clean s) : '\n' ∉ s ∧ '\r' ∉ s :=
  ⟨fun hc => absurd (h.flat '\n' hc (by decide)) (by decide),
    fun hc => absurd (h.flat '\r' hc (by decide)) (by decide)⟩

/-- A mark and a space between two texts with something to show. -/
theorem Clean.join {mark : Char} (hmark : isBlank mark = false) (hs : Clean s) (ht : Clean t)
    (hs' : s ≠ []) (ht' : t ≠ []) : Clean (s ++ [mark, ' '] ++ t) := by
  have hspace : mark ≠ ' ' := by
    rintro rfl
    exact absurd isBlank_space (by simp [hmark])
  obtain ⟨c, s, rfl⟩ := List.exists_cons_of_ne_nil hs'
  constructor
  · exact (hs.flat.append (flat_cons hmark (flat_cons_space flat_nil))).append ht.flat
  · exact hs.first
  · rw [List.getLast?_append]
    cases h : t.getLast? with
    | none => exact absurd (List.getLast?_eq_none_iff.1 h) ht'
    | some d => exact fun hd => ht.last (h.trans hd)
  · have hafter : ([mark, ' '] ++ t).IsChain fun c d => c = ' ' → d ≠ ' ' := by
      refine List.isChain_cons.2 ⟨fun _ _ h => absurd h hspace, List.isChain_cons.2 ⟨?_, ht.single⟩⟩
      rintro d hd - rfl
      exact ht.first hd
    rw [List.append_assoc]
    refine List.isChain_append.2 ⟨hs.single, hafter, ?_⟩
    rintro d hd e he rfl
    exact absurd hd hs.last

theorem clean_joinWith {mark : Char} (hmark : isBlank mark = false) {parts : List Text}
    (h : ∀ part ∈ parts, Clean part ∧ part ≠ []) :
    Clean (joinWith [mark, ' '] parts) ∧ (parts ≠ [] → joinWith [mark, ' '] parts ≠ []) := by
  induction parts with
  | nil => exact ⟨clean_nil, absurd rfl⟩
  | cons first parts ih =>
      obtain ⟨⟨hfirst, hne⟩, hparts⟩ := List.forall_mem_cons.1 h
      cases parts with
      | nil => exact ⟨hfirst, fun _ => hne⟩
      | cons second parts =>
          obtain ⟨hrest, hrest'⟩ := ih hparts
          refine ⟨hfirst.join hmark hrest hne (hrest' (List.cons_ne_nil _ _)), fun _ => ?_⟩
          simp [joinWith]

end Joining
end ApiDocs.Text
