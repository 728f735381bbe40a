import ApiDocs.Text.Blank
import ApiDocs.Text.Numeral

namespace ApiDocs.Log.Pattern

/-- With `unicode`, an item may stand for any character; without it, no byte of a text but an
ASCII character may be matched by itself. With `spaced`, blanks and comments do not count. -/
structure Flags where
  unicode : Bool
  spaced : Bool
deriving DecidableEq, Repr

namespace Flags

def standard : Flags := ⟨true, false⟩

def skipFrom (inComment : Bool) : Text → Text
  | [] => []
  | c :: s =>
    if inComment then skipFrom (c ≠ '\n') s
    else if Text.isBlank c then skipFrom false s
    else if c = '#' then skipFrom true s
    else c :: s

def skip (f : Flags) (s : Text) : Text := if f.spaced then skipFrom false s else s

/-- The character that comes next; a sign of a comment is passed over, but not its text. -/
def peek? (f : Flags) (s : Text) : Option Char :=
  if f.spaced then
    let rest := s.dropWhile Text.isBlank
    let rest := if rest.head? = some '#' then rest.tail.dropWhile Text.isBlank else rest
    if rest = [] then s.head? else rest.head?
  else s.head?

theorem length_skipFrom (inComment : Bool) (s : Text) :
    (skipFrom inComment s).length ≤ s.length := by
  induction s generalizing inComment with
  | nil => exact Nat.le_refl _
  | cons c s ih =>
    unfold skipFrom
    split
    · exact Nat.le_succ_of_le (ih _)
    · split
      · exact Nat.le_succ_of_le (ih _)
      · split
        · exact Nat.le_succ_of_le (ih _)
        · exact Nat.le_refl _

theorem length_skip (f : Flags) (s : Text) : (f.skip s).length ≤ s.length := by
  unfold skip
  split
  · exact length_skipFrom _ _
  · exact Nat.le_refl _

end Flags

inductive Item
  | char (c : Char)
  | byte (c : Char)
  | any
  | set (complement : Bool)
  | category
  | edge
  | wordEdge
deriving DecidableEq, Repr

namespace Item

def fits (f : Flags) : Item → Bool
  | char _ => true
  | byte c => f.unicode || c.toNat < 0x80
  | any => f.unicode
  | set complement => f.unicode || !complement
  | category => f.unicode
  | edge => true
  | wordEdge => !f.unicode

def isMember (f : Flags) : Item → Bool
  | char c => f.unicode || c.toNat < 0x80
  | byte c => f.unicode || c.toNat < 0x80
  | any => false
  | set complement => f.unicode || !complement
  | category => f.unicode
  | edge => false
  | wordEdge => false

def char? : Item → Option Char
  | char c => some c
  | byte c => some c
  | _ => none

def isRange (a b : Item) : Bool :=
  match a.char?, b.char? with
  | some c, some d => c.toNat ≤ d.toNat
  | _, _ => false

end Item

def isHexDigit (c : Char) : Bool := (Numeral.digit? 16 c).isSome

def hexDigits? (f : Flags) : (width : Nat) → Text → Option (Text × Text)
  | 0, s => some ([], s)
  | width + 1, s =>
    match f.skip s with
    | [] => none
    | c :: rest =>
      if isHexDigit c then (hexDigits? f width rest).map fun (digits, rest) => (c :: digits, rest)
      else none

def hexadecimal? (f : Flags) (width : Nat) (s : Text) : Option (Char × Text) :=
  (hexDigits? f width s).bind fun (digits, rest) =>
    (Numeral.read 16 digits).toOption.bind fun n =>
      (CodePoint.toChar? n).map fun c => (c, rest)

def category? (f : Flags) (s : Text) : Option (Item × Text) :=
  match f.skip s with
  | [] => none
  | c :: rest => if "lmnpszc".toList.contains c.toLower then some (.category, rest) else none

def controls : List (Char × Char) :=
  [('a', '\x07'), ('f', '\x0c'), ('n', '\n'), ('r', '\r'), ('t', '\t'), ('v', '\x0b')]

def isWordEdge (c : Char) : Bool := c = 'b' || c = 'B' || c = '<' || c = '>'

def isMark (c : Char) : Bool := c.toNat < 0x80 && !c.isAlphanum

def escape? (f : Flags) : Text → Option (Item × Text)
  | [] => none
  | c :: s =>
    if c = 'x' then (hexadecimal? f 2 s).map fun (d, rest) => (.byte d, rest)
    else if c = 'u' then (hexadecimal? f 4 s).map fun (d, rest) => (.char d, rest)
    else if c = 'U' then (hexadecimal? f 8 s).map fun (d, rest) => (.char d, rest)
    else if c = 'p' ∨ c = 'P' then category? f s
    else if c = 'd' ∨ c = 's' ∨ c = 'w' then some (.set false, s)
    else if c = 'D' ∨ c = 'S' ∨ c = 'W' then some (.set true, s)
    else if c = 'A' ∨ c = 'z' then some (.edge, s)
    else if isWordEdge c then some (.wordEdge, s)
    else if isMark c then some (.char c, s)
    else (controls.find? (·.1 = c)).map fun control => (.char control.2, s)

def member? (f : Flags) : Text → Option (Item × Text)
  | [] => none
  | c :: s => if c = '\\' then escape? f s else some (.char c, s)

def item? (f : Flags) : Text → Option (Item × Text)
  | [] => none
  | c :: s =>
    if c = '.' then some (.any, s)
    else if c = '^' ∨ c = '$' then some (.edge, s)
    else member? f (c :: s)

/-- How deep several parts side by side are; one part by itself adds no depth. -/
def joinedDepth : List Nat → Nat
  | [] => 0
  | [d] => d
  | ds => ds.foldl max 0 + 1

end ApiDocs.Log.Pattern
