import ApiDocs.Files.Path

/-!
A disk: directories and files by their places. A place is the list of names from the root; the
root is always there.

There are no links, no permissions and no limit of space: every file can be read and written over,
and every directory can be listed and can take further items. What can fail is to find a place, to
put something where something else is, and to use a name or a path that is too long.
-/

namespace ApiDocs.Files

abbrev Place := List Text

inductive Item
  | file (content : ByteArray)
  | directory

inductive Fault
  | notFound
  | alreadyExists
  | notDirectory
  | isDirectory
  | nameTooLong
deriving DecidableEq, Repr

def Fault.message : Fault → Text
  | .notFound => "No such file or directory (os error 2)"
  | .alreadyExists => "File exists (os error 17)"
  | .notDirectory => "Not a directory (os error 20)"
  | .isDirectory => "Is a directory (os error 21)"
  | .nameTooLong => "File name too long (os error 36)"

def longestName : Nat := 255

def longestPath : Nat := 4095

/-- Relative paths start at `home`. -/
structure Disk where
  home : Place
  items : List (Place × Item)

namespace Disk

def item? (d : Disk) (place : Place) : Option Item :=
  if place = [] then some .directory else (d.items.find? (·.1 = place)).map (·.2)

def putItem : List (Place × Item) → Place → Item → List (Place × Item)
  | [], place, item => [(place, item)]
  | (p, i) :: rest, place, item =>
    if p = place then (place, item) :: rest else (p, i) :: putItem rest place item

def put (d : Disk) (place : Place) (item : Item) : Disk :=
  { d with items := putItem d.items place item }

/-- One piece of a path. Whatever the piece, it starts in a directory. -/
def step (d : Disk) (place : Place) (piece : Text) : Except Fault Place :=
  match d.item? place with
  | none => .error .notFound
  | some (.file _) => .error .notDirectory
  | some .directory =>
    if piece = [] ∨ piece = "." then .ok place
    else if piece = ".." then .ok place.dropLast
    else if longestName < Text.byteSize piece then .error .nameTooLong
    else if (d.item? (place ++ [piece])).isSome then .ok (place ++ [piece])
    else .error .notFound

def walk (d : Disk) (place : Place) : List Text → Except Fault Place
  | [] => .ok place
  | piece :: pieces =>
    match d.step place piece with
    | .ok next => d.walk next pieces
    | .error fault => .error fault

def startOf (d : Disk) (path : Text) : Place := if Path.isAbsolute path then [] else d.home

def locate (d : Disk) (path : Text) : Except Fault Place :=
  if path = [] then .error .notFound
  else if longestPath < Text.byteSize path then .error .nameTooLong
  else d.walk (d.startOf path) (Text.splitAt '/' path)

def itemAt? (d : Disk) (path : Text) : Option Item := (d.locate path).toOption.bind d.item?

def isFile (d : Disk) (path : Text) : Bool :=
  match d.itemAt? path with
  | some (.file _) => true
  | _ => false

def isDirectory (d : Disk) (path : Text) : Bool :=
  match d.itemAt? path with
  | some .directory => true
  | _ => false

def has (d : Disk) (path : Text) : Bool := (d.itemAt? path).isSome

def read (d : Disk) (path : Text) : Except Fault ByteArray :=
  match d.locate path with
  | .error fault => .error fault
  | .ok place =>
    match d.item? place with
    | some (.file content) => .ok content
    | some .directory => .error .isDirectory
    | none => .error .notFound

def locateParent (d : Disk) (path : Text) (pieces : List Text) : Except Fault (Place × Text) :=
  if longestPath < Text.byteSize path then .error .nameTooLong
  else
    match d.walk (d.startOf path) pieces.dropLast with
    | .error fault => .error fault
    | .ok parent =>
      match d.step parent "." with
      | .error fault => .error fault
      | .ok parent => .ok (parent, pieces.getLast?.getD [])

def isStep (piece : Text) : Bool := piece = [] || piece = "." || piece = ".."

def write (d : Disk) (path : Text) (content : ByteArray) : Except Fault Disk :=
  match d.locateParent path (Text.splitAt '/' path) with
  | .error fault => .error fault
  | .ok (parent, name) =>
    if isStep name then .error .isDirectory
    else if longestName < Text.byteSize name then .error .nameTooLong
    else
      match d.item? (parent ++ [name]) with
      | some .directory => .error .isDirectory
      | _ => .ok (d.put (parent ++ [name]) (.file content))

def directoryPieces (path : Text) : List Text :=
  ((Text.splitAt '/' path).reverse.dropWhile (· = [])).reverse

def makeDirectory (d : Disk) (path : Text) : Except Fault Disk :=
  match d.locateParent path (directoryPieces path) with
  | .error fault => .error fault
  | .ok (parent, name) =>
    if isStep name then .error .alreadyExists
    else if longestName < Text.byteSize name then .error .nameTooLong
    else if (d.item? (parent ++ [name])).isSome then .error .alreadyExists
    else .ok (d.put (parent ++ [name]) .directory)

def ensureDirectory (d : Disk) (path : Text) : Except Fault Disk :=
  match d.makeDirectory path with
  | .ok d => .ok d
  | .error fault => if d.isDirectory path then .ok d else .error fault

/-- Makes the first of these directories. If something is missing above it, the others come
first. What has been made stays in case of a fault. -/
def ensureFirst (d : Disk) : List Text → Disk × Option Fault
  | [] => (d, none)
  | path :: above =>
    match d.makeDirectory path with
    | .error .notFound =>
      match d.ensureFirst above with
      | (d, some fault) => (d, some fault)
      | (d, none) =>
        match d.ensureDirectory path with
        | .ok d => (d, none)
        | .error fault => (d, some fault)
    | _ =>
      match d.ensureDirectory path with
      | .ok d => (d, none)
      | .error fault => (d, some fault)

def ensureAll (d : Disk) (path : Text) : Disk × Option Fault := d.ensureFirst (Path.ancestors path)

/-- The places below a place, each as the names that lead to it. -/
def below (d : Disk) (place : Place) : List (List Text) :=
  d.items.filterMap fun (p, _) =>
    if place.isPrefixOf p ∧ p ≠ place then some (p.drop place.length) else none

def belowAt (d : Disk) (path : Text) : List (List Text) :=
  if d.isDirectory path then
    match d.locate path with
    | .ok place => d.below place
    | .error _ => []
  else []

def namesAt (d : Disk) (path : Text) : List Text :=
  (d.belowAt path).filterMap fun names =>
    match names with
    | [name] => some name
    | _ => none

end Disk

def decode? (content : ByteArray) : Option Text :=
  (String.fromUTF8? content).map String.toList

def encode (s : Text) : ByteArray := (String.ofList s).toUTF8

def invalidMessage : Text := "stream did not contain valid UTF-8"

end ApiDocs.Files
