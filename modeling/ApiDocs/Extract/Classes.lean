import ApiDocs.Extract.Prose
import ApiDocs.Xml.Tree
import ApiDocs.Model.Class

namespace ApiDocs.Extract

open Xml

def memberElements (root : Element) : List Element := root.named "member"

def namedMembers (root : Element) : List (Text × Element) :=
  (memberElements root).filterMap fun e => (e.attribute? "name").map (·, e)

def typeName? (name : Text) : Option Text := Text.dropStart? "T:" name

def memberMarks : List Text := ["M:", "P:", "F:"]

def memberStarts (typeName : Text) : List Text :=
  memberMarks.map fun mark => mark ++ typeName ++ "."

def kindOf : Text → Kind
  | [] => .unknown
  | c :: _ => Kind.ofLetter c

/-- The prose of the children with this tag, keyed by an attribute. A child without it is left
out. -/
def entries (e : Element) (tag key : Text) : List Entry :=
  Entry.collect <| (e.childrenNamed tag).filterMap fun child =>
    (child.attribute? key).map fun name => ⟨name, prose child⟩

def member (name : Text) (e : Element) : Member where
  kind := kindOf name
  name := name
  summary := childProse e "summary"
  remarks := childProse e "remarks"
  returns := childProse e "returns"
  value := childProse e "value"
  permission := childProse e "permission"
  overloads := childProse e "overloads"
  inheritDoc := (e.child? "inheritdoc").isSome
  parameters := entries e "param" "name"
  typeParameters := entries e "typeparam" "name"
  exceptions := entries e "exception" "cref"
  seeAlso := ((e.childrenNamed "seealso").filterMap (·.attribute? "cref")).map Text.clean
  examples := (e.childrenNamed "example").map prose
  lists := (e.childrenNamed "list").map listLine

def membersOf (typeName : Text) (members : List (Text × Element)) : List Member :=
  let starts := memberStarts typeName
  (members.filter fun m => starts.any (Text.isStart · m.1)).map fun m => member m.1 m.2

def typeClass (typeName : Text) (e : Element) (members : List (Text × Element)) : Class where
  className := (Identifier.split typeName).2
  nameSpace := (Identifier.split typeName).1
  summary := childProse e "summary"
  remarks := childProse e "remarks"
  members := membersOf typeName members

/-- One class for each type with a name, in document order. -/
def classes (root : Element) : List Class :=
  let members := namedMembers root
  members.filterMap fun (name, e) =>
    match typeName? name with
    | none | some [] => none
    | some typeName => some (typeClass typeName e members)

def document (s : Text) : Except Error (List Class) := (parse s).map classes

end ApiDocs.Extract
