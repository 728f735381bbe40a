import ApiDocs.Json.Value
import ApiDocs.Model.Class

namespace ApiDocs.Json

def kindName : Kind → Text
  | .method => "Method"
  | .property => "Property"
  | .field => "Field"
  | .unknown => "Unknown"

def texts (l : List Text) : Value := .array (l.map .text)

def ofEntry (e : Entry) : Value :=
  .object [("description", .text e.description), ("name", .text e.name)]

def entries (l : List Entry) : Value := .array (l.map ofEntry)

def ofMember (m : Member) : Value :=
  .object [
    ("examples", texts m.examples),
    ("exceptions", entries m.exceptions),
    ("inherit_doc", .bool m.inheritDoc),
    ("kind", .text (kindName m.kind)),
    ("lists", texts m.lists),
    ("name", .text m.name),
    ("overloads", .text m.overloads),
    ("parameters", entries m.parameters),
    ("permission", .text m.permission),
    ("remarks", .text m.remarks),
    ("returns", .text m.returns),
    ("see_also", texts m.seeAlso),
    ("summary", .text m.summary),
    ("type_parameters", entries m.typeParameters),
    ("value", .text m.value)]

def ofClass (c : Class) : Value :=
  .object [
    ("class_name", .text c.className),
    ("members", .array (c.members.map ofMember)),
    ("namespace", .text c.nameSpace),
    ("remarks", .text c.remarks),
    ("summary", .text c.summary)]

def ofClasses (classes : List Class) : Value :=
  .object [("classes", .array (classes.map ofClass))]

def render (classes : List Class) : Text := write 0 (ofClasses classes) ++ "\n"

end ApiDocs.Json
