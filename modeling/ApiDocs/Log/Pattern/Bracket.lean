import ApiDocs.Log.Pattern.Item

namespace ApiDocs.Log.Pattern

/-- An open bracket: the depth of what stands before its last operator, and the depths of the
members after it. -/
structure Bracket where
  left : Option Nat
  members : List Nat
deriving DecidableEq, Repr

namespace Bracket

def add (b : Bracket) (depth : Nat) : Bracket := { b with members := depth :: b.members }

def depth (b : Bracket) : Nat :=
  match b.left with
  | none => joinedDepth b.members
  | some left => max left (joinedDepth b.members) + 1

def operate (b : Bracket) : Bracket := ⟨some b.depth, []⟩

end Bracket

def hyphens (f : Flags) (s : Text) : List Char × Text :=
  match _h : f.skip s with
  | [] => ([], [])
  | c :: rest =>
    if c = '-' then
      let (more, rest) := hyphens f rest
      (c :: more, rest)
    else ([], c :: rest)
termination_by s.length
decreasing_by
  have := f.length_skip s
  rw [_h, List.length_cons] at this
  omega

/-- A bracket and the text behind its start: hyphens are members there, or one closing bracket.
Only with `unicode` may it be negated. -/
def openBracket? (f : Flags) (s : Text) : Option (Bracket × Text) :=
  let s := f.skip s
  let negated := s.head? = some '^'
  if negated ∧ !f.unicode then none
  else
    match hyphens f (if negated then s.tail else s) with
    | ([], ']' :: rest) => some (⟨none, [0]⟩, rest)
    | (members, rest) => some (⟨none, members.map fun _ => 0⟩, rest)

def setNames : List Text :=
  ["alnum", "alpha", "ascii", "blank", "cntrl", "digit", "graph", "lower", "print", "punct",
    "space", "upper", "word", "xdigit"]

def namedSet? (s : Text) : Option (Item × Text) :=
  (Text.dropStart? ":" s).bind fun s =>
    let negated := decide (s.head? = some '^')
    match Text.cutAt? ":" (if negated then s.tail else s) with
    | some (name, ']' :: rest) => if name ∈ setNames then some (.set negated, rest) else none
    | _ => none

def operators : List Text := ["&&", "--", "~~"]

def dropOperator? (s : Text) : Option Text := operators.findSome? (Text.dropStart? · s)

/-- The text behind one member or range of a bracket. A hyphen before the end or before another
hyphen makes no range. -/
def dropMember? (f : Flags) (s : Text) : Option Text :=
  (member? f s).bind fun (a, rest) =>
    let rest := f.skip rest
    let next := f.peek? rest.tail
    if rest.head? = some '-' ∧ next ≠ some ']' ∧ next ≠ some '-' then
      (member? f (f.skip rest.tail)).bind fun (b, rest) =>
        if a.isMember f && b.isMember f && a.isRange b then some rest else none
    else if a.isMember f then some rest
    else none

def closeBracket? (f : Flags) : (fuel : Nat) → Bracket → (outer : List Bracket) → Text →
    Option (Nat × Text)
  | 0, _, _, _ => none
  | fuel + 1, b, outer, s =>
    match f.skip s with
    | [] => none
    | c :: rest =>
      if c = '[' then
        match namedSet? rest with
        | some (set, rest) =>
          if set.isMember f then closeBracket? f fuel (b.add 0) outer rest else none
        | none =>
          (openBracket? f rest).bind fun (inner, rest) =>
            closeBracket? f fuel inner (b :: outer) rest
      else if c = ']' then
        match outer with
        | [] => some (b.depth + 1, rest)
        | o :: outer => closeBracket? f fuel (o.add (b.depth + 1)) outer rest
      else
        match dropOperator? (c :: rest) with
        | some rest => closeBracket? f fuel b.operate outer rest
        | none => (dropMember? f (c :: rest)).bind (closeBracket? f fuel (b.add 0) outer)

def bracket? (f : Flags) (s : Text) : Option (Nat × Text) :=
  (openBracket? f s).bind fun (b, rest) => closeBracket? f (s.length + 1) b [] rest

end ApiDocs.Log.Pattern
