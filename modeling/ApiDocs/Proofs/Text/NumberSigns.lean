import ApiDocs.Proofs.Text.Lines
import Mathlib.Algebra.GroupWithZero.Nat
import Mathlib.Data.List.Infix

namespace ApiDocs.Text

def isSigned (line : Text) : Bool := line.head? = some '#'

/-- The lines of `s` that begin with a number sign. `fresh` says that a line begins with `s`. -/
def signs (fresh : Bool) : Text → Nat
  | [] => 0
  | c :: s => (if fresh ∧ c = '#' then 1 else 0) + signs (c = '\n') s

def endsFresh (fresh : Bool) : Text → Bool
  | [] => fresh
  | c :: s => endsFresh (c = '\n') s

variable {s t : Text}

theorem signs_append (fresh : Bool) (s t : Text) :
    signs fresh (s ++ t) = signs fresh s + signs (endsFresh fresh s) t := by
  induction s generalizing fresh with
  | nil => simp [signs, endsFresh]
  | cons c s ih => rw [List.cons_append, signs, ih, signs, endsFresh, Nat.add_assoc]

theorem endsFresh_append (fresh : Bool) (s t : Text) :
    endsFresh fresh (s ++ t) = endsFresh (endsFresh fresh s) t := by
  induction s generalizing fresh with
  | nil => rfl
  | cons c s ih => exact ih (c = '\n')

theorem signs_cons_of_ne {c : Char} (h : c ≠ '#') (fresh : Bool) (s : Text) :
    signs fresh (c :: s) = signs (c = '\n') s := by simp [signs, h]

theorem signs_append_cons {c : Char} (h : c ≠ '#') (fresh : Bool) (s t : Text) :
    signs fresh (s ++ c :: t) = signs fresh s + signs (c = '\n') t := by
  rw [signs_append, signs_cons_of_ne h]

theorem signs_inside_cons (c : Char) (s : Text) :
    signs false (c :: s) = signs (c = '\n') s := by simp [signs]

theorem Closed.endsFresh (h : Closed s) : endsFresh true s = true := by
  rcases h.cases with rfl | ⟨s, rfl⟩
  · rfl
  · rw [endsFresh_append]
    rfl

theorem Closed.signs_append (h : Closed s) (t : Text) :
    signs true (s ++ t) = signs true s + signs true t := by
  rw [Text.signs_append, h.endsFresh]

theorem signs_flatMap {α : Type} {xs : List α} {f : α → Text} (h : ∀ x ∈ xs, Closed (f x)) :
    signs true (xs.flatMap f) = (xs.map fun x => signs true (f x)).sum := by
  induction xs with
  | nil => rfl
  | cons x xs ih =>
      obtain ⟨hx, hxs⟩ := List.forall_mem_cons.1 h
      rw [List.flatMap_cons, hx.signs_append, ih hxs, List.map_cons, List.sum_cons]

/-- The count from left to right is the number of lines with the sign. Inside a line, the rest of
that line does not count. -/
theorem countP_splitAt (fresh : Bool) (s : Text) :
    (if fresh then splitAt '\n' s else (splitAt '\n' s).tail).countP isSigned = signs fresh s := by
  -- both answers at once: a line feed turns the rest from one into the other
  induction s generalizing fresh with
  | nil => cases fresh <;> rfl
  | cons c s ih =>
      by_cases hc : c = '\n'
      · subst hc
        rw [splitAt_cons_self, signs_cons_of_ne (by decide), ← ih]
        cases fresh <;> rfl
      · obtain ⟨line, rest, hs, hcons⟩ := splitAt_cons_of_ne hc s
        have hrest := ih false
        rw [hs] at hrest
        rw [hcons, signs, decide_eq_false hc, ← hrest]
        cases fresh with
        | false => simp
        | true => simp [List.countP_cons, isSigned, Nat.add_comm]

theorem signs_fresh (s : Text) :
    signs true s = (if isSigned s then 1 else 0) + signs false s := by
  cases s with
  | nil => rfl
  | cons c s => simp [signs, isSigned]

theorem signs_inside_eq_zero : signs false s = 0 ↔ ¬ "\n#" <:+: s := by
  induction s with
  | nil => simp [signs]
  | cons c s ih =>
      rw [signs_inside_cons, List.infix_cons_iff, not_or, ← ih]
      by_cases hc : c = '\n'
      · subst hc
        cases s with
        | nil => simp [signs]
        | cons d s => simp [signs, eq_comm (a := d)]
      · simp [hc, Ne.symm hc]

theorem signs_inside_of_not_mem (h : '\n' ∉ s) : signs false s = 0 := by
  rw [signs_inside_eq_zero]
  exact fun hs => h (hs.subset (by decide))

theorem signs_line (h : '\n' ∉ s) : signs true s = 0 ↔ ¬ "#" <+: s := by
  rw [signs_fresh, signs_inside_of_not_mem h]
  cases s with
  | nil => simp [isSigned]
  | cons c s => simp [isSigned, eq_comm (a := c)]

end ApiDocs.Text
