import ApiDocs.Text.Basic
import Mathlib.Algebra.Group.Nat.Defs
import Mathlib.Data.List.Basic
import Mathlib.Tactic.SplitIfs

namespace ApiDocs.Text

def bytes (s : Text) : List UInt8 := s.flatMap String.utf8EncodeChar

/-- The last `k` bytes of the form of a code point: six bits each, the higher bits first. -/
def trail : (k : Nat) → (n : Nat) → List UInt8
  | 0, _ => []
  | k + 1, n => UInt8.ofNat (n / 64 ^ k % 64 + 0x80) :: trail k n

def lead (n : Nat) : Nat × Nat :=
  if n ≤ 0x7f then (n, 0)
  else if n ≤ 0x7ff then (n / 64 + 0xc0, 1)
  else if n ≤ 0xffff then (n / 4096 + 0xe0, 2)
  else (n / 262144 + 0xf0, 3)

section Characters

variable {m n : Nat} {u v : List UInt8}

theorem ofNat_lt (h : m < n) (hn : n < 256) : UInt8.ofNat m < UInt8.ofNat n := by
  rw [UInt8.lt_iff_toNat_lt, UInt8.toNat_ofNat', UInt8.toNat_ofNat']
  omega

theorem codePoint_lt (c : Char) : c.toNat < 0x110000 := by
  rcases c.valid with h | ⟨-, h⟩
  · exact Nat.lt_trans h (by decide)
  · exact h

theorem encode_eq (c : Char) :
    String.utf8EncodeChar c = UInt8.ofNat (lead c.toNat).1 :: trail (lead c.toNat).2 c.toNat := by
  have hmax : c.toNat < 0x110000 := codePoint_lt c
  unfold String.utf8EncodeChar lead
  simp only [Char.toNat] at hmax ⊢
  split_ifs
  · rfl
  · rw [Nat.mod_eq_of_lt (by omega)]
    simp [trail]
  · rw [Nat.mod_eq_of_lt (by omega)]
    simp [trail]
  · rw [Nat.mod_eq_of_lt (by omega)]
    simp [trail]

/-- The highest bits that differ decide. -/
theorem trail_lt {k : Nat} (h : m % 64 ^ k < n % 64 ^ k) : trail k m ++ u < trail k n ++ v := by
  induction k with
  | zero => simp [Nat.mod_one] at h
  | succ k ih =>
      rw [Nat.pow_succ, Nat.mod_mul, Nat.mod_mul] at h
      rw [trail, trail, List.cons_append, List.cons_append, List.cons_lt_cons_iff]
      have hm := Nat.mod_lt m (Nat.pow_pos (n := k) (show 0 < 64 by decide))
      have hn := Nat.mod_lt n (Nat.pow_pos (n := k) (show 0 < 64 by decide))
      rcases Nat.lt_trichotomy (m / 64 ^ k % 64) (n / 64 ^ k % 64) with hlt | heq | hgt
      · exact .inl (ofNat_lt (by omega) (by omega))
      · rw [heq] at h ⊢
        exact .inr ⟨rfl, ih (by omega)⟩
      · have := Nat.mul_le_mul_left (64 ^ k) hgt
        rw [Nat.mul_succ] at this
        omega

theorem lead_lt (h : m < n) (hn : n < 0x110000) :
    (lead m).1 < (lead n).1 ∨
      lead m = lead n ∧ m % 64 ^ (lead n).2 < n % 64 ^ (lead n).2 := by
  unfold lead
  split_ifs <;> simp <;> omega

theorem lead_lt_256 (hn : n < 0x110000) : (lead n).1 < 256 := by
  unfold lead
  split_ifs <;> simp <;> omega

theorem encode_lt {c d : Char} (h : c < d) :
    String.utf8EncodeChar c ++ u < String.utf8EncodeChar d ++ v := by
  rw [encode_eq, encode_eq, List.cons_append, List.cons_append, List.cons_lt_cons_iff]
  rcases lead_lt (m := c.toNat) h (codePoint_lt d) with hlead | ⟨hlead, htrail⟩
  · exact .inl (ofNat_lt hlead (lead_lt_256 (codePoint_lt d)))
  · rw [hlead]
    exact .inr ⟨rfl, trail_lt htrail⟩

end Characters

theorem bytes_cons (c : Char) (s : Text) : bytes (c :: s) = String.utf8EncodeChar c ++ bytes s :=
  List.flatMap_cons

theorem bytes_lt {s t : Text} (h : s < t) : bytes s < bytes t := by
  induction s generalizing t with
  | nil =>
      cases t with
      | nil => exact absurd h (List.lt_irrefl [])
      | cons d t =>
        rw [bytes_cons, encode_eq]
        exact List.nil_lt_cons _ _
  | cons c s ih =>
      cases t with
      | nil => exact absurd h (List.not_lt_nil _)
      | cons d t =>
          rw [bytes_cons, bytes_cons]
          rcases List.cons_lt_cons_iff.1 h with hlt | ⟨rfl, htail⟩
          · exact encode_lt hlt
          · exact List.append_left_lt (ih htail)

end ApiDocs.Text
