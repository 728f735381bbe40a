import ApiDocs.Extract.Classes

namespace ApiDocs.Extract

open Xml

inductive Note
  | namelessMember
  | emptyTypeName
  | extracted (typeName : Text) (members : Nat)
deriving DecidableEq, Repr

def namelessNotes (root : Element) : List Note :=
  ((memberElements root).filter fun e => (e.attribute? "name").isNone).map fun _ => .namelessMember

def typeNotes (members : List (Text × Element)) : List Note :=
  members.filterMap fun m =>
    match typeName? m.1 with
    | none => none
    | some [] => some .emptyTypeName
    | some typeName => some (.extracted typeName (membersOf typeName members).length)

/-- The names of all members are looked at before the types. -/
def notes (root : Element) : List Note := namelessNotes root ++ typeNotes (namedMembers root)

end ApiDocs.Extract
