import ApiDocs.Command.Options
import ApiDocs.Files.Search

namespace ApiDocs.Command

open Files

structure Reach where
  path : Text
  depth : Nat
deriving DecidableEq, Repr

def anyDepth : Nat := 4096

def leadingNames : List Glob.Level → List Text
  | ⟨false, .literal name⟩ :: ls => name :: leadingNames ls
  | _ => []

def goesUp (l : Glob.Level) : Bool := l.test = .literal ".." || (dotNames l.test).contains ".."

/-- A pattern that goes up again below a wildcard is looked for everywhere. -/
def reachOfPattern (p : Glob.Pattern) : Reach :=
  let names := leadingNames p.levels
  let rest := p.levels.drop names.length
  let start : Text := if p.absolute then "/" else "."
  if rest.any goesUp then ⟨start, anyDepth⟩
  else
    ⟨names.foldl extend start, if rest.any (·.deep) then anyDepth else rest.length⟩

def reachOfInput (input : Text) : List Reach :=
  ⟨input, 1⟩ :: match Glob.read input with
    | .ok p => [reachOfPattern p]
    | .error _ => []

def reach (o : Options) : List Reach :=
  (match o.output with
    | some directory => [⟨directory, 1⟩]
    | none => []) ++ o.inputs.flatMap reachOfInput

def placeFrom (place : Place) : List Text → Place
  | [] => place
  | piece :: pieces =>
    if piece = [] ∨ piece = "." then placeFrom place pieces
    else if piece = ".." then placeFrom place.dropLast pieces
    else placeFrom (place ++ [piece]) pieces

def startPlace (home : Place) (path : Text) : Place := if Path.isAbsolute path then [] else home

/-- The places that a path passes on its way, the last one included. -/
def placesAlong (home : Place) (path : Text) : List Place :=
  let pieces := Text.splitAt '/' path
  (List.range (pieces.length + 1)).map fun n =>
    placeFrom (startPlace home path) (pieces.take n)

def placeOf (home : Place) (path : Text) : Place :=
  placeFrom (startPlace home path) (Text.splitAt '/' path)

def changes (before after : Disk) : List (Place × Item) :=
  after.items.filter fun (place, item) =>
    match item, before.item? place with
    | .file new, some (.file old) => new.data != old.data
    | .directory, some .directory => false
    | _, _ => true

end ApiDocs.Command
