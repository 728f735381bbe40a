import ApiDocs.Json.Document
import ApiDocs.Proofs.Json.RoundTrip
import Mathlib.Data.List.Forall2

namespace ApiDocs.Json

namespace Value

def text? : Value → Option Text
  | text s => some s
  | _ => none

def bool? : Value → Option Bool
  | bool b => some b
  | _ => none

def items? {α : Type} (read : Value → Option α) : Value → Option (List α)
  | array vs => vs.mapM read
  | _ => none

def field? {α : Type} (key : Text) (read : Value → Option α) : Value → Option α
  | object fs => (fs.find? (·.1 = key)).bind fun f => read f.2
  | _ => none

end Value

open Value

def toKind? (v : Value) : Option Kind :=
  v.text?.bind fun s => [Kind.method, .property, .field, .unknown].find? (kindName · = s)

def toEntry? (v : Value) : Option Entry := do
  let name ← v.field? "name" text?
  let description ← v.field? "description" text?
  some ⟨name, description⟩

def toMember? (v : Value) : Option Member := do
  let kind ← v.field? "kind" toKind?
  let name ← v.field? "name" text?
  let summary ← v.field? "summary" text?
  let remarks ← v.field? "remarks" text?
  let returns ← v.field? "returns" text?
  let value ← v.field? "value" text?
  let permission ← v.field? "permission" text?
  let overloads ← v.field? "overloads" text?
  let inheritDoc ← v.field? "inherit_doc" bool?
  let parameters ← v.field? "parameters" (items? toEntry?)
  let typeParameters ← v.field? "type_parameters" (items? toEntry?)
  let exceptions ← v.field? "exceptions" (items? toEntry?)
  let seeAlso ← v.field? "see_also" (items? text?)
  let examples ← v.field? "examples" (items? text?)
  let lists ← v.field? "lists" (items? text?)
  some ⟨kind, name, summary, remarks, returns, value, permission, overloads, inheritDoc, parameters,
    typeParameters, exceptions, seeAlso, examples, lists⟩

def toClass? (v : Value) : Option Class := do
  let className ← v.field? "class_name" text?
  let nameSpace ← v.field? "namespace" text?
  let summary ← v.field? "summary" text?
  let remarks ← v.field? "remarks" text?
  let members ← v.field? "members" (items? toMember?)
  some ⟨className, nameSpace, summary, remarks, members⟩

theorem items?_map {α : Type} {read : Value → Option α} {write : α → Value}
    (h : ∀ a, read (write a) = some a) (as : List α) :
    items? read (.array (as.map write)) = some as := by
  induction as with
  | nil => rfl
  | cons a as ih =>
      rw [items?] at ih ⊢
      rw [List.map_cons, List.mapM_cons, h, ih]
      rfl

theorem toKind?_kindName (k : Kind) : toKind? (.text (kindName k)) = some k := by
  cases k <;> rfl

theorem toEntry?_ofEntry (e : Entry) : toEntry? (ofEntry e) = some e := rfl

theorem items?_texts (l : List Text) : items? text? (texts l) = some l :=
  @items?_map Text text? Value.text (fun _ => rfl) l

theorem items?_entries (l : List Entry) : items? toEntry? (entries l) = some l :=
  items?_map toEntry?_ofEntry l

theorem toMember?_ofMember (m : Member) : toMember? (ofMember m) = some m := by
  have hkind : (ofMember m).field? "kind" toKind? = some m.kind := toKind?_kindName m.kind
  have hparameters : (ofMember m).field? "parameters" (items? toEntry?) = some m.parameters :=
    items?_entries m.parameters
  have htypeParameters : (ofMember m).field? "type_parameters" (items? toEntry?) =
      some m.typeParameters := items?_entries m.typeParameters
  have hexceptions : (ofMember m).field? "exceptions" (items? toEntry?) = some m.exceptions :=
    items?_entries m.exceptions
  have hseeAlso : (ofMember m).field? "see_also" (items? text?) = some m.seeAlso :=
    items?_texts m.seeAlso
  have hexamples : (ofMember m).field? "examples" (items? text?) = some m.examples :=
    items?_texts m.examples
  have hlists : (ofMember m).field? "lists" (items? text?) = some m.lists :=
    items?_texts m.lists
  rw [toMember?, hkind, hparameters, htypeParameters, hexceptions, hseeAlso, hexamples, hlists]
  rfl

theorem toClass?_ofClass (c : Class) : toClass? (ofClass c) = some c := by
  have hmembers : (ofClass c).field? "members" (items? toMember?) = some c.members :=
    items?_map toMember?_ofMember c.members
  rw [toClass?, hmembers]
  rfl

theorem read_render (classes : List Class) :
    read (render classes) = some (ofClasses classes, ['\n']) :=
  read_write 0 (ofClasses classes) ['\n']

/-- A document is a JSON text up to its last line feed: an object whose only field holds an object
for each class, in order, from which the class is read back. So no two lists of classes have the
same document. -/
theorem render_lossless (classes : List Class) :
    (∃ items, read (render classes) = some (.object [("classes", .array items)], ['\n']) ∧
      List.Forall₂ (fun c v => toClass? v = some c) classes items) ∧
    ∀ other, render other = render classes → other = classes := by
  have hrecovered (cs : List Class) :
      List.Forall₂ (fun c v => toClass? v = some c) cs (cs.map ofClass) := by
    rw [List.forall₂_map_right_iff, List.forall₂_same]
    exact fun c _ => toClass?_ofClass c
  constructor
  · exact ⟨classes.map ofClass, read_render classes, hrecovered classes⟩
  · intro other he
    have hread := read_render other
    rw [he, read_render classes] at hread
    have hmap : other.map ofClass = classes.map ofClass := by
      simpa [ofClasses] using hread.symm
    have hinj : Function.Injective ofClass := by
      intro c d hcd
      have hc := toClass?_ofClass c
      rw [hcd, toClass?_ofClass d, Option.some.injEq] at hc
      exact hc.symm
    exact List.map_injective_iff.2 hinj hmap

end ApiDocs.Json
