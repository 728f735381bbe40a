import ApiDocs.Log.Pattern.Bracket
import ApiDocs.Log.Pattern.Group

namespace ApiDocs.Log.Pattern

structure Piece where
  depth : Nat
  repeatable : Bool
deriving DecidableEq, Repr

/-- An open group: its flags, the depths of its earlier alternatives, and the sequence that is
being read, last piece first. -/
structure Group where
  flags : Flags
  alternatives : List Nat
  pieces : List Piece
deriving DecidableEq, Repr

namespace Group

def start (flags : Flags) : Group := ⟨flags, [], []⟩

def add (g : Group) (depth : Nat) : Group := { g with pieces := ⟨depth, true⟩ :: g.pieces }

def addFlags (g : Group) (flags : Flags) : Group :=
  { g with flags := flags, pieces := ⟨0, false⟩ :: g.pieces }

def sequenceDepth (g : Group) : Nat := joinedDepth (g.pieces.map (·.depth))

def alternate (g : Group) : Group :=
  { g with alternatives := g.sequenceDepth :: g.alternatives, pieces := [] }

def depth (g : Group) : Nat := joinedDepth (g.sequenceDepth :: g.alternatives)

def repeat? (g : Group) : Option Group :=
  match g.pieces with
  | ⟨depth, true⟩ :: pieces => some { g with pieces := ⟨depth + 1, true⟩ :: pieces }
  | _ => none

end Group

def isRepetition (c : Char) : Bool := c = '*' || c = '+' || c = '?'

def withoutMark (s : Text) : Text := if s.head? = some '?' then s.tail else s

/-- The depth of an expression of which a text is the rest, inside a group in others; `names` are
the names of groups so far. -/
def depthFrom? : (fuel : Nat) → Group → (outer : List Group) → (names : List Text) → Text →
    Option Nat
  | 0, _, _, _, _ => none
  | fuel + 1, g, outer, names, s =>
    match g.flags.skip s with
    | [] => if outer = [] then some g.depth else none
    | c :: rest =>
      if c = '(' then
        match opening? g.flags rest with
        | none => none
        | some (.flags flags, rest) => depthFrom? fuel (g.addFlags flags) outer names rest
        | some (.group none flags, rest) =>
          depthFrom? fuel (.start flags) (g :: outer) names rest
        | some (.group (some name) flags, rest) =>
          if name ∈ names then none
          else depthFrom? fuel (.start flags) (g :: outer) (name :: names) rest
      else if c = ')' then
        match outer with
        | [] => none
        | o :: outer => depthFrom? fuel (o.add (g.depth + 1)) outer names rest
      else if c = '|' then depthFrom? fuel g.alternate outer names rest
      else if c = '[' then
        (bracket? g.flags rest).bind fun (depth, rest) =>
          depthFrom? fuel (g.add depth) outer names rest
      else if isRepetition c then
        g.repeat?.bind fun g => depthFrom? fuel g outer names (withoutMark rest)
      else if c = '{' then none
      else
        (item? g.flags (c :: rest)).bind fun (item, rest) =>
          if item.fits g.flags then depthFrom? fuel (g.add 0) outer names rest else none

def depth? (s : Text) : Option Nat := depthFrom? (s.length + 1) (.start .standard) [] [] s

def deepest : Nat := 250

def isExpression (s : Text) : Bool :=
  match depth? s with
  | some depth => depth ≤ deepest
  | none => false

end ApiDocs.Log.Pattern
