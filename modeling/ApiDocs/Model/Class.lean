import ApiDocs.Model.Identifier
import ApiDocs.Model.Entry

namespace ApiDocs

inductive Kind
  | method
  | property
  | field
  | unknown
deriving DecidableEq, Repr

def Kind.ofLetter (c : Char) : Kind :=
  if c = 'M' then .method
  else if c = 'P' then .property
  else if c = 'F' then .field
  else .unknown

/-- The name is the whole identifier, with its kind. -/
structure Member where
  kind : Kind
  name : Text
  summary : Text
  remarks : Text
  returns : Text
  value : Text
  permission : Text
  overloads : Text
  inheritDoc : Bool
  parameters : List Entry
  typeParameters : List Entry
  exceptions : List Entry
  seeAlso : List Text
  examples : List Text
  lists : List Text
deriving DecidableEq, Repr

/-- The name without its kind, and without the namespace if the name continues after it. -/
def Member.title (m : Member) (nameSpace : Text) : Text :=
  let name := Identifier.withoutKind m.name
  if nameSpace = [] then name
  else
    match Text.dropStart? nameSpace name with
    | some ('.' :: c :: rest) => c :: rest
    | _ => name

structure Class where
  className : Text
  nameSpace : Text
  summary : Text
  remarks : Text
  members : List Member
deriving DecidableEq, Repr

def Class.fullName (c : Class) : Text := Identifier.join c.nameSpace c.className

end ApiDocs
