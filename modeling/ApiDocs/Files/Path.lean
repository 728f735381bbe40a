import ApiDocs.Text.Basic

namespace ApiDocs.Path

inductive Component
  | root
  | current
  | parent
  | name (s : Text)
deriving DecidableEq, Repr

def isAbsolute (path : Text) : Bool := path.head? = some '/'

def ofPiece (piece : Text) : Option Component :=
  if piece = [] ∨ piece = "." then none
  else if piece = ".." then some .parent
  else some (.name piece)

/-- Repeated and trailing slashes do not count, nor does `.` unless it leads. -/
def components (path : Text) : List Component :=
  let pieces := Text.splitAt '/' path
  let lead :=
    if isAbsolute path then [.root]
    else if pieces.head? = some "." then [.current]
    else []
  lead ++ pieces.filterMap ofPiece

def Component.rank : Component → Nat
  | root => 0
  | current => 1
  | parent => 2
  | name _ => 3

def Component.text : Component → Text
  | root => []
  | current => "."
  | parent => ".."
  | name s => s

def Component.before (a b : Component) : Bool :=
  a.rank < b.rank || (a.rank = b.rank && decide (a.text < b.text))

def componentsBefore : List Component → List Component → Bool
  | _, [] => false
  | [], _ :: _ => true
  | a :: as, b :: bs => if a = b then componentsBefore as bs else a.before b

def before (p q : Text) : Bool := componentsBefore (components p) (components q)

def insert : List Text → Text → List Text
  | [], p => [p]
  | q :: qs, p =>
    if components q = components p then q :: qs
    else if before p q then p :: q :: qs
    else q :: insert qs p

/-- In order, each path once, in the form in which it came first. -/
def ordered (paths : List Text) : List Text := paths.foldl insert []

def ofComponents (l : List Component) : Text :=
  match l with
  | .root :: rest => '/' :: Text.joinWith "/" (rest.map Component.text)
  | l => Text.joinWith "/" (l.map Component.text)

def ancestors (path : Text) : List Text :=
  match components path with
  | [] => []
  | l => path :: ((List.range (l.length - 1)).reverse.map fun n => ofComponents (l.take (n + 1)))

def join (path name : Text) : Text :=
  if isAbsolute name ∨ path = [] then name
  else if path.getLast? = some '/' then path ++ name
  else path ++ "/" ++ name

def fileName? (path : Text) : Option Text :=
  match (components path).getLast? with
  | some (.name s) => some s
  | _ => none

/-- The name before its last dot and the text after it. A dot at the start does not count. -/
def cutName (name : Text) : Text × Option Text :=
  match Text.cutAtLast? '.' name with
  | none | some ([], _) => (name, none)
  | some (stem, extension) => (stem, some extension)

def extension? (path : Text) : Option Text := (fileName? path).bind fun name => (cutName name).2

def stem? (path : Text) : Option Text := (fileName? path).map fun name => (cutName name).1

end ApiDocs.Path
