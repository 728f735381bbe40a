import ApiDocs.Proofs.Text.Pieces

namespace ApiDocs.Text

/-- A line may begin behind the text: it is empty, or a line feed ends it. -/
def Closed (s : Text) : Prop := ∀ c ∈ s.getLast?, c = '\n'

/-- The lines of a closed text, without their line feeds. -/
def rows (s : Text) : List Text := (splitAt '\n' s).dropLast

variable {s t : Text}

theorem closed_nil : Closed [] := by
  intro c hc
  cases hc

theorem closed_of_getLast? (h : s.getLast? = some '\n') : Closed s := by
  intro c hc
  rw [h] at hc
  exact (Option.some.inj hc).symm

theorem closed_append_of_getLast? (h : t.getLast? = some '\n') (s : Text) : Closed (s ++ t) := by
  apply closed_of_getLast?
  rw [List.getLast?_append, h, Option.some_or]

theorem closed_line (s : Text) : Closed (s ++ "\n") := closed_append_of_getLast? rfl s

theorem Closed.append (hs : Closed s) (ht : Closed t) : Closed (s ++ t) := by
  intro c hc
  rw [List.getLast?_append, Option.mem_def, Option.or_eq_some_iff] at hc
  rcases hc with hc | ⟨-, hc⟩
  · exact ht c hc
  · exact hs c hc

theorem closed_flatMap {α : Type} {xs : List α} {f : α → Text} (h : ∀ x ∈ xs, Closed (f x)) :
    Closed (xs.flatMap f) := by
  induction xs with
  | nil => exact closed_nil
  | cons x xs ih =>
      obtain ⟨hx, hxs⟩ := List.forall_mem_cons.1 h
      exact hx.append (ih hxs)

theorem Closed.cases (h : Closed s) : s = [] ∨ ∃ t, s = t ++ "\n" := by
  rcases List.eq_nil_or_concat s with rfl | ⟨t, c, rfl⟩
  · exact .inl rfl
  · obtain rfl := h c (by simp)
    exact .inr ⟨t, List.concat_eq_append⟩

theorem rows_line (s : Text) : rows (s ++ "\n") = splitAt '\n' s := by
  rw [rows, show s ++ "\n" = s ++ '\n' :: [] from rfl, splitAt_append_cons,
    splitAt_of_not_mem List.not_mem_nil, List.dropLast_concat]

theorem Closed.splitAt_append (h : Closed s) (t : Text) :
    splitAt '\n' (s ++ t) = rows s ++ splitAt '\n' t := by
  rcases h.cases with rfl | ⟨s, rfl⟩
  · rfl
  · rw [rows_line, List.append_assoc]
    exact splitAt_append_cons '\n' s t

theorem Closed.splitAt_eq (h : Closed s) : splitAt '\n' s = rows s ++ [[]] := by
  have hs := h.splitAt_append []
  rwa [List.append_nil, splitAt_of_not_mem List.not_mem_nil] at hs

theorem Closed.rows_append (h : Closed s) (t : Text) : rows (s ++ t) = rows s ++ rows t := by
  rw [rows, h.splitAt_append, List.dropLast_append_of_ne_nil (splitAt_ne_nil _ _), ← rows]

theorem rows_flatMap {α : Type} {xs : List α} {f : α → Text} (h : ∀ x ∈ xs, Closed (f x)) :
    rows (xs.flatMap f) = xs.flatMap fun x => rows (f x) := by
  induction xs with
  | nil => rfl
  | cons x xs ih =>
      obtain ⟨hx, hxs⟩ := List.forall_mem_cons.1 h
      rw [List.flatMap_cons, hx.rows_append, ih hxs, List.flatMap_cons]

end ApiDocs.Text
