import ApiDocs.Proofs.Text.Cut

namespace ApiDocs.Text

variable {c : Char} {s : Text}

section Pieces

variable {p : Char → Bool}

theorem pieces_cons_of_pos (h : p c = true) (s : Text) : pieces p (c :: s) = [] :: pieces p s := by
  rw [pieces, if_pos h]

theorem pieces_cons_of_neg (h : p c = false) (s : Text) :
    ∃ part parts, pieces p s = part :: parts ∧ pieces p (c :: s) = (c :: part) :: parts := by
  obtain ⟨part, parts, hs⟩ := List.exists_cons_of_ne_nil (pieces_ne_nil p s)
  refine ⟨part, parts, hs, ?_⟩
  rw [pieces, if_neg (Bool.eq_false_iff.1 h), hs]

theorem pieces_append_cons (h : p c = true) (s t : Text) :
    pieces p (s ++ c :: t) = pieces p s ++ pieces p t := by
  induction s with
  | nil => exact pieces_cons_of_pos h t
  | cons d s ih =>
      cases hd : p d with
      | true =>
          rw [List.cons_append, pieces_cons_of_pos hd, pieces_cons_of_pos hd, ih, List.cons_append]
      | false =>
          obtain ⟨part, parts, hs, hcons⟩ := pieces_cons_of_neg hd s
          obtain ⟨part', parts', hst, hcons'⟩ := pieces_cons_of_neg hd (s ++ c :: t)
          rw [ih, hs, List.cons_append, List.cons.injEq] at hst
          rw [List.cons_append, hcons', hcons, ← hst.1, ← hst.2, List.cons_append]

theorem pieces_congr {q : Char → Bool} (h : ∀ c ∈ s, p c = q c) : pieces p s = pieces q s := by
  induction s with
  | nil => rfl
  | cons c s ih =>
      obtain ⟨hc, hs⟩ := List.forall_mem_cons.1 h
      rw [pieces, pieces, hc, ih hs]

theorem pieces_of_forall (h : ∀ c ∈ s, p c = false) : pieces p s = [s] := by
  induction s with
  | nil => rfl
  | cons d s ih =>
      obtain ⟨hd, hs⟩ := List.forall_mem_cons.1 h
      obtain ⟨part, parts, hsplit, hcons⟩ := pieces_cons_of_neg hd s
      rw [ih hs, List.cons.injEq] at hsplit
      rw [hcons, ← hsplit.1, ← hsplit.2]

theorem forall_mem_pieces : ∀ part ∈ pieces p s, ∀ c ∈ part, p c = false := by
  induction s with
  | nil => simp [pieces]
  | cons d s ih =>
      cases hd : p d with
      | true =>
          rw [pieces_cons_of_pos hd]
          exact List.forall_mem_cons.2 ⟨List.forall_mem_nil _, ih⟩
      | false =>
          obtain ⟨part, parts, hs, hcons⟩ := pieces_cons_of_neg hd s
          rw [hs] at ih
          obtain ⟨hpart, hparts⟩ := List.forall_mem_cons.1 ih
          rw [hcons]
          exact List.forall_mem_cons.2 ⟨List.forall_mem_cons.2 ⟨hd, hpart⟩, hparts⟩

end Pieces

theorem splitAt_ne_nil (c : Char) (s : Text) : splitAt c s ≠ [] := pieces_ne_nil _ s

theorem splitAt_cons_self (c : Char) (s : Text) : splitAt c (c :: s) = [] :: splitAt c s :=
  pieces_cons_of_pos (p := (· == c)) (beq_self_eq_true c) s

theorem splitAt_cons_of_ne {d : Char} (h : d ≠ c) (s : Text) :
    ∃ part parts, splitAt c s = part :: parts ∧ splitAt c (d :: s) = (d :: part) :: parts :=
  pieces_cons_of_neg (p := (· == c)) (beq_false_of_ne h) s

theorem splitAt_append_cons (c : Char) (s t : Text) :
    splitAt c (s ++ c :: t) = splitAt c s ++ splitAt c t :=
  pieces_append_cons (p := (· == c)) (beq_self_eq_true c) s t

theorem splitAt_of_not_mem (h : c ∉ s) : splitAt c s = [s] :=
  pieces_of_forall fun _ hd => beq_false_of_ne (ne_of_mem_of_not_mem hd h)

theorem splitAt_append_of_not_mem (h : c ∉ s) {t part : Text} {parts : List Text}
    (ht : splitAt c t = part :: parts) : splitAt c (s ++ t) = (s ++ part) :: parts := by
  induction s with
  | nil => exact ht
  | cons d s ih =>
      rw [List.mem_cons, not_or] at h
      obtain ⟨hd, hs⟩ := h
      obtain ⟨part', parts', hsplit, hcons⟩ := splitAt_cons_of_ne (Ne.symm hd) (s ++ t)
      rw [ih hs, List.cons.injEq] at hsplit
      rw [List.cons_append, hcons, ← hsplit.1, ← hsplit.2, List.cons_append]

theorem splitAt_eq_cons (c : Char) (s : Text) :
    splitAt c s = s.takeWhile (· ≠ c) :: (splitAt c s).tail := by
  induction s with
  | nil => rfl
  | cons d s ih =>
      by_cases hd : d = c
      · subst hd
        rw [splitAt_cons_self, List.takeWhile_cons_of_neg (by simp), List.tail_cons]
      · obtain ⟨part, parts, hs, hcons⟩ := splitAt_cons_of_ne hd s
        rw [hs, List.tail_cons, List.cons.injEq] at ih
        rw [hcons, List.takeWhile_cons_of_pos (by simpa using hd), ← ih.1, List.tail_cons]

theorem not_mem_of_mem_splitAt : ∀ part ∈ splitAt c s, c ∉ part := by
  intro part hpart hc
  have hne := forall_mem_pieces part hpart c hc
  rw [beq_self_eq_true] at hne
  cases hne

theorem joinWith_append (separator : Text) {parts rest : List Text} (hparts : parts ≠ [])
    (hrest : rest ≠ []) :
    joinWith separator (parts ++ rest) =
      joinWith separator parts ++ separator ++ joinWith separator rest := by
  induction parts with
  | nil => exact absurd rfl hparts
  | cons first parts ih =>
      cases parts with
      | nil =>
          obtain ⟨second, rest, rfl⟩ := List.exists_cons_of_ne_nil hrest
          rfl
      | cons second parts =>
          have he := ih (List.cons_ne_nil second parts)
          simp only [List.cons_append, joinWith, List.append_assoc] at he ⊢
          rw [he]

theorem joinWith_snoc {parts : List Text} (h : parts ≠ []) (separator part : Text) :
    joinWith separator (parts ++ [part]) = joinWith separator parts ++ separator ++ part :=
  joinWith_append separator h (List.cons_ne_nil part [])

/-- Parts without the separator are found again. -/
theorem splitAt_joinWith {parts : List Text} (hne : parts ≠ []) (h : ∀ part ∈ parts, c ∉ part) :
    splitAt c (joinWith [c] parts) = parts := by
  induction parts with
  | nil => exact absurd rfl hne
  | cons first parts ih =>
      obtain ⟨hfirst, hparts⟩ := List.forall_mem_cons.1 h
      cases parts with
      | nil => exact splitAt_of_not_mem hfirst
      | cons second parts =>
          rw [joinWith, List.append_assoc, List.singleton_append, splitAt_append_cons,
            splitAt_of_not_mem hfirst, ih (List.cons_ne_nil second parts) hparts]
          rfl

theorem count_joinWith {parts : List Text} (h : ∀ part ∈ parts, c ∉ part) :
    (joinWith [c] parts).count c = parts.length - 1 := by
  induction parts with
  | nil => rfl
  | cons first parts ih =>
      obtain ⟨hfirst, hparts⟩ := List.forall_mem_cons.1 h
      cases parts with
      | nil => exact List.count_eq_zero.2 hfirst
      | cons second parts =>
          rw [joinWith, List.count_append, List.count_append, List.count_eq_zero.2 hfirst,
            ih hparts, List.count_singleton_self]
          simp only [List.length_cons]
          omega

theorem cutAtLast?_append {mark : Char} {rest : Text} (h : mark ∉ rest) (before : Text) :
    cutAtLast? mark (before ++ mark :: rest) = some (before, rest) := by
  induction before with
  | nil => rw [List.nil_append, cutAtLast?, cutAtLast?_eq_none.2 h, if_pos rfl]
  | cons c before ih => rw [List.cons_append, cutAtLast?, ih]

end ApiDocs.Text
