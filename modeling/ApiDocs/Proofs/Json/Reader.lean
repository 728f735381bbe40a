import ApiDocs.Json.Value
import ApiDocs.Text.Numeral

namespace ApiDocs.Json

def isSpace (c : Char) : Bool := c = ' ' || c = '\t' || c = '\n' || c = '\r'

def skip (s : Text) : Text := s.dropWhile isSpace

def readUnit : Text → Option (Nat × Text)
  | a :: b :: c :: d :: s => do
    let a ← Numeral.digit? 16 a
    let b ← Numeral.digit? 16 b
    let c ← Numeral.digit? 16 c
    let d ← Numeral.digit? 16 d
    some (((a * 16 + b) * 16 + c) * 16 + d, s)
  | _ => none

/-- The second half of a pair of units that stand for one character. -/
def readLowUnit (high : Nat) : Text → Option (Char × Text)
  | '\\' :: 'u' :: s => do
    let (low, s) ← readUnit s
    if 0xdc00 ≤ low ∧ low < 0xe000 then
      some (Char.ofNat (0x10000 + (high - 0xd800) * 0x400 + (low - 0xdc00)), s)
    else none
  | _ => none

def readCode (s : Text) : Option (Char × Text) := do
  let (n, s) ← readUnit s
  if 0xd800 ≤ n ∧ n < 0xdc00 then readLowUnit n s else (CodePoint.toChar? n).map (·, s)

def escaped? (c : Char) : Option Char :=
  if c = '"' ∨ c = '\\' ∨ c = '/' then some c
  else if c = 'n' then some '\n'
  else if c = 'r' then some '\r'
  else if c = 't' then some '\t'
  else if c = 'b' then some '\x08'
  else if c = 'f' then some '\x0c'
  else none

/-- One character inside a string. Quotes and control characters have to be escaped. -/
def readChar : Text → Option (Char × Text)
  | '\\' :: 'u' :: s => readCode s
  | '\\' :: c :: s => (escaped? c).map (·, s)
  | c :: s => if c = '\\' ∨ c = '"' ∨ c.toNat < 0x20 then none else some (c, s)
  | [] => none

def readChars : (n : Nat) → Text → Option (Text × Text)
  | _, '"' :: s => some ([], s)
  | 0, _ => none
  | n + 1, s => do
    let (c, s) ← readChar s
    let (t, s) ← readChars n s
    some (c :: t, s)

def readString : Text → Option (Text × Text)
  | '"' :: s => readChars s.length s
  | _ => none

section Lists

variable {α : Type} (read : Text → Option (α × Text)) (closing : Char)

def readItems : (n : Nat) → Text → Option (List α × Text)
  | 0, _ => none
  | n + 1, s => do
    let (a, s) ← read s
    match skip s with
    | c :: s =>
      if c = ',' then (readItems n s).map fun (as, s) => (a :: as, s)
      else if c = closing then some ([a], s)
      else none
    | [] => none

def readList (s : Text) : Option (List α × Text) :=
  match skip s with
  | c :: rest => if c = closing then some ([], rest) else readItems read closing s.length s
  | [] => none

def readField (s : Text) : Option ((Text × α) × Text) := do
  let (key, s) ← readString (skip s)
  match skip s with
  | c :: s => if c = ':' then (read s).map fun (a, s) => ((key, a), s) else none
  | [] => none

end Lists

/-- A value whose parts are nested at most `n` deep. -/
def readValue : (n : Nat) → Text → Option (Value × Text)
  | 0, _ => none
  | n + 1, s =>
    match skip s with
    | '"' :: s => (readString ('"' :: s)).map fun (t, s) => (.text t, s)
    | 't' :: 'r' :: 'u' :: 'e' :: s => some (.bool true, s)
    | 'f' :: 'a' :: 'l' :: 's' :: 'e' :: s => some (.bool false, s)
    | '[' :: s => (readList (readValue n) ']' s).map fun (vs, s) => (.array vs, s)
    | '\x7b' :: s => (readList (readField (readValue n)) '\x7d' s).map fun (fs, s) => (.object fs, s)
    | _ => none

def read (s : Text) : Option (Value × Text) := readValue s.length s

end ApiDocs.Json
