import ApiDocs.Text.CodePoint

namespace ApiDocs.Numeral

inductive Fault
  | empty
  | badDigit
  | tooLarge
deriving DecidableEq, Repr

def Fault.message : Fault → Text
  | .empty => "cannot parse integer from empty string"
  | .badDigit => "invalid digit found in string"
  | .tooLarge => "number too large to fit in target type"

def bound : Nat := UInt32.size

/-- The value of a digit of a base up to 16; letters stand for ten and more in either case. -/
def digit? (base : Nat) (c : Char) : Option Nat :=
  let n := c.toNat
  let d :=
    if 0x30 ≤ n ∧ n ≤ 0x39 then some (n - 0x30)
    else if 0x61 ≤ n ∧ n ≤ 0x66 then some (n - 0x61 + 10)
    else if 0x41 ≤ n ∧ n ≤ 0x46 then some (n - 0x41 + 10)
    else none
  d.filter (· < base)

def readFrom (base : Nat) : (value : Nat) → Text → Except Fault Nat
  | value, [] => .ok value
  | value, c :: s =>
    match digit? base c with
    | none => .error .badDigit
    | some d =>
      if value * base + d < bound then readFrom base (value * base + d) s else .error .tooLarge

def read (base : Nat) (s : Text) : Except Fault Nat :=
  if s = [] then .error .empty else readFrom base 0 s

theorem digit?_lt {base : Nat} {c : Char} {d : Nat} (h : digit? base c = some d) : d < base := by
  simpa using (Option.filter_eq_some_iff.1 h).2

end ApiDocs.Numeral
