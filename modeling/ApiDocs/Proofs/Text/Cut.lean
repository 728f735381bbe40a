import ApiDocs.Text.Basic

namespace ApiDocs.Text

/-- No proper end of the mark is also its start, so its occurrences do not overlap. -/
def Borderless (mark : Text) : Prop :=
  mark ≠ [] ∧ ∀ n < mark.length, 0 < n → ¬ mark.drop n <+: mark

instance (mark : Text) : Decidable (Borderless mark) :=
  inferInstanceAs (Decidable (mark ≠ [] ∧ ∀ n < mark.length, 0 < n → ¬ mark.drop n <+: mark))

theorem dropStart?_append (start rest : Text) : dropStart? start (start ++ rest) = some rest := by
  induction start with
  | nil => rfl
  | cons c start ih => simpa [dropStart?] using ih

theorem dropStart?_eq_none {start s : Text} (h : ¬ start <+: s) : dropStart? start s = none := by
  cases hd : dropStart? start s with
  | none => rfl
  | some rest => exact absurd ⟨rest, (dropStart?_eq_some hd).symm⟩ h

/-- A mark that starts inside `body ++ mark` starts at the end of `body` or lies in `body`. -/
theorem Borderless.not_prefix {mark body : Text} (hm : Borderless mark) (hne : body ≠ [])
    (h : ¬ mark <:+: body) (rest : Text) : ¬ mark <+: body ++ (mark ++ rest) := by
  intro hp
  have hb : body <+: body ++ (mark ++ rest) := List.prefix_append _ _
  rcases List.prefix_or_prefix_of_prefix hp hb with hp' | ⟨v, rfl⟩
  · exact h hp'.isInfix
  · have hrest : v <+: (body ++ v) ++ rest := by simpa [List.append_assoc] using hp
    have hv : v <+: body ++ v :=
      List.prefix_of_prefix_length_le hrest (List.prefix_append _ _) (by simp)
    by_cases hnil : v = []
    · exact h (by simp [hnil])
    · have hlen : body.length < (body ++ v).length := by
        simpa using List.length_pos_iff.2 hnil
      exact hm.2 body.length hlen (List.length_pos_iff.2 hne) (by rwa [List.drop_left])

theorem cutAt?_append {mark body : Text} (hm : Borderless mark) (h : ¬ mark <:+: body)
    (rest : Text) : cutAt? mark (body ++ (mark ++ rest)) = some (body, rest) := by
  induction body with
  | nil =>
      have hd := dropStart?_append mark rest
      obtain ⟨c, mark, rfl⟩ := List.exists_cons_of_ne_nil hm.1
      simp only [List.cons_append] at hd
      simp only [List.nil_append, List.cons_append, cutAt?, hd]
  | cons c body ih =>
      have hd := dropStart?_eq_none (hm.not_prefix (List.cons_ne_nil c body) h rest)
      rw [List.cons_append] at hd
      have hi : ¬ mark <:+: body := fun hi => h (hi.trans (List.suffix_cons c body).isInfix)
      simp only [List.cons_append, cutAt?, hd, ih hi, Option.map_some]

theorem borderless_singleton (c : Char) : Borderless [c] := by
  refine ⟨List.cons_ne_nil _ _, fun n hn h0 => ?_⟩
  simp at hn
  omega

theorem cutAt?_char {c : Char} {body : Text} (h : c ∉ body) (rest : Text) :
    cutAt? [c] (body ++ c :: rest) = some (body, rest) :=
  cutAt?_append (borderless_singleton c) (fun hi => h (hi.subset List.mem_cons_self)) rest

theorem cutAtLast?_eq_none {mark : Char} {s : Text} : cutAtLast? mark s = none ↔ mark ∉ s := by
  induction s with
  | nil => simp [cutAtLast?]
  | cons c s ih =>
      rw [cutAtLast?, List.mem_cons, not_or, ← ih]
      cases cutAtLast? mark s with
      | none => simp [eq_comm]
      | some parts => simp

theorem cutAtLast?_eq_some {mark : Char} {s before rest : Text}
    (h : cutAtLast? mark s = some (before, rest)) : s = before ++ mark :: rest ∧ mark ∉ rest := by
  induction s generalizing before with
  | nil => cases h
  | cons c s ih =>
      rw [cutAtLast?] at h
      cases hs : cutAtLast? mark s with
      | some parts =>
          rw [hs] at h
          cases h
          obtain ⟨rfl, hr⟩ := ih hs
          exact ⟨rfl, hr⟩
      | none =>
          rw [hs] at h
          by_cases hc : c = mark
          · rw [if_pos hc] at h
            cases h
            exact ⟨hc ▸ rfl, cutAtLast?_eq_none.1 hs⟩
          · rw [if_neg hc] at h
            cases h

section Ends

def cutAtLastMark? (mark : Text) : Text → Option (Text × Text)
  | [] => (dropStart? mark []).map fun rest => ([], rest)
  | c :: s =>
    match cutAtLastMark? mark s with
    | some (before, rest) => some (c :: before, rest)
    | none => (dropStart? mark (c :: s)).map fun rest => ([], rest)

/-- What stands between `first` and `last` in a text that begins with the one and then ends with the
other. -/
def inside? (first last s : Text) : Option Text :=
  ((dropStart? first s).bind fun rest => dropStart? last.reverse rest.reverse).map List.reverse

variable {c : Char} {mark s : Text}

theorem cutAtLastMark?_eq_none (h : c ∉ s) : cutAtLastMark? (c :: mark) s = none := by
  induction s with
  | nil => rfl
  | cons d s ih =>
      rw [List.mem_cons, not_or] at h
      obtain ⟨hd, hs⟩ := h
      rw [cutAtLastMark?, ih hs, dropStart?, if_neg hd]
      rfl

theorem cutAtLastMark?_append {rest : Text} (h : c ∉ mark ++ rest) (before : Text) :
    cutAtLastMark? (c :: mark) (before ++ (c :: mark ++ rest)) = some (before, rest) := by
  induction before with
  | nil =>
      have hd := dropStart?_append (c :: mark) rest
      rw [List.cons_append] at hd
      rw [List.nil_append, List.cons_append, cutAtLastMark?, cutAtLastMark?_eq_none h, hd]
      rfl
  | cons d before ih => rw [List.cons_append, cutAtLastMark?, ih]

theorem inside?_append (first last s : Text) : inside? first last (first ++ (s ++ last)) = some s := by
  rw [inside?, dropStart?_append, Option.bind_some, List.reverse_append, dropStart?_append,
    Option.map_some, List.reverse_reverse]

end Ends
end ApiDocs.Text
