import ApiDocs.Text.Basic

namespace ApiDocs

inductive Forest
  | nil
  | node (name fullName : Text) (children siblings : Forest)
deriving DecidableEq, Repr

namespace Forest

def dotted (above : Option Text) (part : Text) : Text :=
  match above with
  | none => part
  | some fullName => fullName ++ "." ++ part

def branch (above : Option Text) : List Text → Forest
  | [] => nil
  | part :: parts =>
    let fullName := dotted above part
    node part fullName (branch (some fullName) parts) nil

/-- Walks down the nodes that are there and adds those that are missing. -/
def insert : Forest → (above : Option Text) → List Text → Forest
  | nil, above, parts => branch above parts
  | node name fullName children siblings, _, [] => node name fullName children siblings
  | node name fullName children siblings, above, part :: parts =>
    if name = part then
      node name fullName (children.insert (some (dotted above part)) parts) siblings
    else node name fullName children (siblings.insert above (part :: parts))

def add (f : Forest) (nameSpace : Text) : Forest := f.insert none (Text.splitAt '.' nameSpace)

def ofNamespaces (nameSpaces : List Text) : Forest := nameSpaces.foldl add nil

structure Line where
  depth : Nat
  name : Text
  fullName : Text
deriving DecidableEq, Repr

def linesFrom (depth : Nat) : Forest → List Line
  | nil => []
  | node name fullName children siblings =>
    ⟨depth, name, fullName⟩ :: children.linesFrom (depth + 1) ++ siblings.linesFrom depth

def lines (f : Forest) : List Line := f.linesFrom 0

end Forest
end ApiDocs
