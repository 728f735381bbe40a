import ApiDocs.Text.Basic

namespace ApiDocs.CodePoint

abbrev Range := Nat × Nat

def Range.has (r : Range) (c : Char) : Bool := r.1 ≤ c.toNat && c.toNat ≤ r.2

def covers (ranges : List Range) (c : Char) : Bool := ranges.any (·.has c)

def toChar? (n : Nat) : Option Char := if n.isValidChar then some (Char.ofNat n) else none

theorem covers_iff {ranges : List Range} {c : Char} :
    covers ranges c = true ↔ ∃ r ∈ ranges, r.1 ≤ c.toNat ∧ c.toNat ≤ r.2 := by
  simp [covers, Range.has]

theorem toChar?_toNat (c : Char) : toChar? c.toNat = some c := by
  simp [toChar?, show c.toNat.isValidChar from c.valid]

theorem toNat_ofNat {n : Nat} (h : n.isValidChar) : (Char.ofNat n).toNat = n := by
  rw [Char.ofNat, dif_pos h]
  rfl

theorem toChar?_eq_some_iff {n : Nat} {c : Char} : toChar? n = some c ↔ n = c.toNat := by
  constructor
  · intro h
    unfold toChar? at h
    split at h
    · next hn =>
      cases h
      rw [toNat_ofNat hn]
    · cases h
  · rintro rfl
    exact toChar?_toNat c

end ApiDocs.CodePoint
