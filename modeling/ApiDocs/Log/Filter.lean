import ApiDocs.Log.Record
import ApiDocs.Log.Value
import ApiDocs.Text.Words

namespace ApiDocs.Log

/-- Records above the rank are dropped. Without a target or a field, all have it. -/
structure Directive where
  target : Option Text
  field : Option Text
  rank : Nat
deriving DecidableEq, Repr

abbrev Filter := List Directive

def levelNames : List (Text × Nat) :=
  [("off", 0), ("error", 1), ("warn", 2), ("info", 3), ("debug", 4), ("trace", 5)]

def digitRank? (s : Text) : Option Nat :=
  let digits := if s.head? = some '+' then s.tail else s
  (Numeral.read 10 digits).toOption.filter (· ≤ 5)

def rank? (s : Text) : Option Nat :=
  match digitRank? s with
  | some n => some n
  | none => ((levelNames.find? (·.1 = s.map Char.toLower)).map (·.2))

def rankAfter? (s : Text) : Option Nat := if s = [] then some Level.trace.rank else rank? s

def startsTarget (c : Char) : Bool := c = '-' || c = ':' || c = '_' || Text.isAlphanumeric c

def bareDirective (s : Text) : Directive :=
  match rank? s with
  | some rank => ⟨none, none, rank⟩
  | none => ⟨some s, none, Level.trace.rank⟩

inductive Part
  | nothing
  | name (start : Nat)
  | span (start : Nat)
  | field (start : Nat)
  | fieldEnd
  | spanEnd
  | level (start : Nat)
deriving DecidableEq, Repr

/-- A directive as far as it is read. It is `foreign` if it names a span or the value of a field:
records have neither to show. -/
structure Draft where
  part : Part
  target : Option Text
  field : Option Text
  foreign : Bool
deriving DecidableEq, Repr

namespace Draft

def empty : Draft := ⟨.nothing, none, none, false⟩

def readField? (d : Draft) (s : Text) : Option Draft :=
  if s = [] then none
  else
    match Text.splitAt '=' s with
    | name :: value :: _ =>
      if Value.isValid value then
        some { d with part := .fieldEnd, field := some name, foreign := true }
      else none
    | _ => some { d with part := .fieldEnd, field := some s }

def next? (s : Text) (d : Draft) (position : Nat) (c : Char) : Option Draft :=
  match d.part with
  | .nothing =>
    if c = '[' then some { d with part := .span (position + 1) }
    else if startsTarget c then some { d with part := .name position }
    else none
  | .name start =>
    let target := some (Text.between start position s)
    if c = '=' then some { d with part := .level (position + 1), target := target }
    else if c = '[' then some { d with part := .span (position + 1), target := target }
    else some d
  | .span start =>
    if c = ']' then some { d with part := .spanEnd, foreign := true }
    else if c = '{' then
      let foreign := decide (Text.between start position s ≠ [])
      some { d with part := .field (position + 1), foreign := foreign }
    else some d
  | .field start => if c = '}' then d.readField? (Text.between start position s) else some d
  | .fieldEnd => if c = ']' then some { d with part := .spanEnd } else none
  | .spanEnd => if c = '=' then some { d with part := .level (position + 1) } else none
  | .level _ => some d

def read? (s : Text) (d : Draft) (position : Nat) : Text → Option Draft
  | [] => some d
  | c :: rest => (d.next? s position c).bind fun d => d.read? s (position + c.utf8Size) rest

def directive? (d : Draft) (rank : Nat) : Option Directive :=
  if d.foreign then none else some ⟨d.target, d.field, rank⟩

def finish? (s : Text) (d : Draft) : Option (Option Directive) :=
  match d.part with
  | .name start => some (some (bareDirective (Text.dropBytes start s)))
  | .spanEnd => some (d.directive? Level.trace.rank)
  | .level start => (rankAfter? (Text.dropBytes start s)).map d.directive?
  | _ => none

end Draft

/-- A directive, or nothing if it says nothing about records; no answer if it cannot be read.
Positions count from the first character that is not blank, but apply to the text with its blanks:
a blank in front moves all cuts. -/
def readDirective? (s : Text) : Option (Option Directive) :=
  (Draft.empty.read? s 0 (Text.trim s)).bind (Draft.finish? s)

def readAll? : List Text → Option (List (Option Directive))
  | [] => some []
  | s :: rest => (readDirective? s).bind fun d => (readAll? rest).map (d :: ·)

def put : Filter → Directive → Filter
  | [], d => [d]
  | e :: es, d =>
    if e.target = d.target ∧ e.field = d.field then d :: es else e :: put es d

def errorsOnly : Filter := [⟨none, none, Level.error.rank⟩]

def warnings : Filter := [⟨none, none, Level.warn.rank⟩]

/-- Without a setting, or with one that cannot be read, warnings are shown. -/
def filterOf (setting : Option Text) : Filter :=
  match setting with
  | none => warnings
  | some s =>
    match (Text.splitAt ',' s).filter (· ≠ []) with
    | [] => errorsOnly
    | pieces =>
      match readAll? pieces with
      | none => warnings
      | some directives => (directives.filterMap id).foldl put []

namespace Directive

def covers (d : Directive) (r : Record) : Bool :=
  (match d.target with
    | none => true
    | some start => Text.isStart start r.target)
  && (match d.field with
    | none => true
    | some name => r.fieldNames.contains name)

def weight (d : Directive) : Nat :=
  match d.target with
  | none => 0
  | some start => start.length + 1

def fieldBefore : Option Text → Option Text → Bool
  | none, some _ => true
  | some a, some b => decide (a < b)
  | _, none => false

def yields (d e : Directive) : Bool :=
  d.weight < e.weight || (d.weight = e.weight && fieldBefore d.field e.field)

end Directive

def heavier (d : Option Directive) (e : Directive) : Option Directive :=
  match d with
  | none => some e
  | some d => if d.yields e then some e else some d

def shows (f : Filter) (r : Record) : Bool :=
  match (f.filter (·.covers r)).foldl heavier none with
  | none => false
  | some d => r.level.rank ≤ d.rank

end ApiDocs.Log
