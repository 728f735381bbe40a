import ApiDocs.Html.Page
import ApiDocs.Markdown

namespace ApiDocs

section Passages

inductive Label
  | summary
  | remarks
  | returns
  | value
  | permission
  | overloads
  | parameters
  | typeParameters
  | exceptions
  | seeAlso
  | examples
  | lists

def Label.text : Label → Text
  | .summary => "Summary"
  | .remarks => "Remarks"
  | .returns => "Returns"
  | .value => "Value"
  | .permission => "Permission"
  | .overloads => "Overloads"
  | .parameters => "Parameters"
  | .typeParameters => "Type Parameters"
  | .exceptions => "Exceptions"
  | .seeAlso => "See Also"
  | .examples => "Examples"
  | .lists => "Lists"

/-- A row of the table of members. The title of a `long` name may break where the format allows
it. -/
structure MemberRow where
  title : Text
  summary : Text
  long : Bool

def MemberRow.ofMember (nameSpace : Text) (m : Member) : MemberRow where
  title := m.title nameSpace
  summary := m.summary
  long := Html.longName < (Identifier.withoutKind m.name).length

inductive Passage
  | nameSpace (name : Text) (classNames : List Text)
  | className (name : Text)
  | qualifier (nameSpace : Text)
  | labelled (label : Label) (text : Text)
  | table (rows : List MemberRow)
  | member (title : Text)
  | inherited (noted : Bool)
  | entries (label : Label) (entries : List Entry)
  | seeAlso (targets : List Text)
  | examples (examples : List Text)
  | lists (lists : List Text)
  | classEnd

namespace Passage

/-- A passage with nothing to say is left out. -/
def isFull : Passage → Bool
  | labelled _ text => !text.isEmpty
  | table rows => !rows.isEmpty
  | inherited noted => noted
  | entries _ es => !es.isEmpty
  | seeAlso targets => !targets.isEmpty
  | examples es => !es.isEmpty
  | lists ls => !ls.isEmpty
  | nameSpace _ _ | className _ | qualifier _ | member _ | classEnd => true

def inheritedText : Text := "Inherits documentation from the base member."

/-- What a reader is shown, in this order. -/
def texts : Passage → List Text
  | nameSpace name classNames => name :: classNames
  | className name => [name]
  | qualifier name => ["Namespace", name]
  | labelled label text => [label.text, text]
  | table rows => "Members" :: "Name" :: "Summary" :: rows.flatMap fun r => [r.title, r.summary]
  | member title => [title]
  | inherited _ => [inheritedText]
  | entries label es => label.text :: es.flatMap fun e => [e.name, e.description]
  | seeAlso targets => Label.seeAlso.text :: targets.map Identifier.withoutKind
  | examples es => Label.examples.text :: es
  | lists ls => Label.lists.text :: ls
  | classEnd => []

end Passage

def Member.passages (nameSpace : Text) (m : Member) : List Passage :=
  [.member (m.title nameSpace),
    .labelled .summary m.summary,
    .labelled .remarks m.remarks,
    .inherited m.inheritDoc,
    .entries .parameters m.parameters,
    .entries .typeParameters m.typeParameters,
    .entries .exceptions m.exceptions,
    .labelled .returns m.returns,
    .labelled .value m.value,
    .labelled .permission m.permission,
    .labelled .overloads m.overloads,
    .seeAlso m.seeAlso,
    .examples m.examples,
    .lists m.lists]

def Class.passages (c : Class) : List Passage :=
  [.className c.className,
    .qualifier c.nameSpace,
    .labelled .summary c.summary,
    .labelled .remarks c.remarks,
    .table (c.members.map (MemberRow.ofMember c.nameSpace))] ++
  c.members.flatMap (Member.passages c.nameSpace) ++
  [.classEnd]

def Group.passages (g : Group) : List Passage :=
  .nameSpace g.nameSpace (g.classes.map (·.className)) :: g.classes.flatMap Class.passages

def passages (classes : List Class) : List Passage :=
  ((Group.ofClasses classes).flatMap Group.passages).filter Passage.isFull

end Passages

inductive Spot
  | line
  | cell
  | link (long : Bool)

/-- A piece of a passage: markup, a text of the document, or the place in the document that belongs
to a name. -/
inductive Fragment
  | markup (s : Text)
  | text (spot : Spot) (s : Text)
  | anchor (name : Text)

namespace Fragment

def text? : Fragment → Option Text
  | text _ s => some s
  | markup _ | anchor _ => none

def markup? : Fragment → Option Text
  | markup s => some s
  | text _ _ | anchor _ => none

def markdown : Fragment → Text
  | markup s => s
  | text .line s => s
  | text .cell s | text (.link _) s => Markdown.escapeCell s
  | anchor name => Anchor.ofHeading name

def html : Fragment → Text
  | markup s => s
  | text .line s | text .cell s | text (.link false) s => Html.escape s
  | text (.link true) s => Html.withBreaks (Html.escape s)
  | anchor name => Html.idOf name

end Fragment

def shownTexts (fragments : List Fragment) : List Text := fragments.filterMap Fragment.text?

def markups (fragments : List Fragment) : List Text := fragments.filterMap Fragment.markup?

def written (encode : Fragment → Text) (fragments : List Fragment) : Text :=
  fragments.flatMap encode

def Passage.ifFull {α : Type} (f : Passage → List α) (p : Passage) : List α :=
  if p.isFull then f p else []

/-- What is written for a passage that may have nothing to say. -/
def Passage.write (encode : Fragment → Text) (spelling : Passage → List Fragment) (p : Passage) :
    Text :=
  p.ifFull fun p => written encode (spelling p)

section Written

variable {α : Type} (encode : Fragment → Text)

@[simp]
theorem written_nil : written encode [] = [] := rfl

@[simp]
theorem written_cons (f : Fragment) (fs : List Fragment) :
    written encode (f :: fs) = encode f ++ written encode fs :=
  List.flatMap_cons

@[simp]
theorem written_append (fs gs : List Fragment) :
    written encode (fs ++ gs) = written encode fs ++ written encode gs :=
  List.flatMap_append

theorem written_flatMap (xs : List α) (f : α → List Fragment) :
    written encode (xs.flatMap f) = xs.flatMap fun x => written encode (f x) :=
  List.flatMap_assoc

end Written

section Walk

variable {α : Type} {f : Passage → List α} {p : Passage}

theorem Passage.ifFull_of_full (h : p.isFull = true) : p.ifFull f = f p := if_pos h

theorem Passage.ifFull_of_not_full (h : p.isFull = false) : p.ifFull f = [] :=
  if_neg (Bool.eq_false_iff.1 h)

theorem Passage.write_of_full {encode : Fragment → Text} {spelling : Passage → List Fragment}
    (h : p.isFull = true) : p.write encode spelling = written encode (spelling p) :=
  if_pos h

theorem Passage.write_of_not_full {encode : Fragment → Text} {spelling : Passage → List Fragment}
    (h : p.isFull = false) : p.write encode spelling = [] :=
  Passage.ifFull_of_not_full h

theorem Passage.write_eq_ifAny {encode : Fragment → Text} {spelling : Passage → List Fragment}
    (items : List α) (h : p.isFull = !items.isEmpty) :
    p.write encode spelling = Text.ifAny items (written encode (spelling p)) := by
  cases items with
  | nil => exact Passage.write_of_not_full h
  | cons x xs => exact Passage.write_of_full h

theorem flatMap_filter_isFull (f : Passage → List α) (ps : List Passage) :
    (ps.filter Passage.isFull).flatMap f = ps.flatMap (Passage.ifFull f) := by
  induction ps with
  | nil => rfl
  | cons p ps ih =>
      rw [List.filter_cons, List.flatMap_cons]
      split
      · next h => rw [List.flatMap_cons, ih, Passage.ifFull_of_full h]
      · next h => rw [ih, Passage.ifFull_of_not_full (Bool.eq_false_iff.2 h), List.nil_append]

/-- Passages with neither headings nor links. -/
def Passage.isNote : Passage → Bool
  | nameSpace _ _ | className _ | table _ | member _ => false
  | _ => true

def Silent (f : Passage → List α) : Prop := ∀ p : Passage, p.isNote = true → f p = []

theorem Silent.flatMap (h : Silent f) {ps : List Passage} (hps : ps.all Passage.isNote = true) :
    ps.flatMap (Passage.ifFull f) = [] := by
  refine List.flatMap_eq_nil_iff.2 fun p hp => ?_
  rw [Passage.ifFull, h p (List.all_eq_true.1 hps p hp), ite_self]

theorem Member.flatMap_passages (h : Silent f) (nameSpace : Text) (m : Member) :
    (m.passages nameSpace).flatMap (Passage.ifFull f) = f (.member (m.title nameSpace)) := by
  rw [Member.passages, List.flatMap_cons, h.flatMap rfl, List.append_nil]
  exact Passage.ifFull_of_full rfl

theorem Class.flatMap_passages (h : Silent f) (c : Class) :
    c.passages.flatMap (Passage.ifFull f) =
      f (.className c.className) ++
        Passage.ifFull f (.table (c.members.map (MemberRow.ofMember c.nameSpace))) ++
        c.members.flatMap fun m => f (.member (m.title c.nameSpace)) := by
  have hparts : c.passages = [.className c.className] ++
      [.qualifier c.nameSpace, .labelled .summary c.summary, .labelled .remarks c.remarks] ++
      [.table (c.members.map (MemberRow.ofMember c.nameSpace))] ++
      c.members.flatMap (Member.passages c.nameSpace) ++ [.classEnd] := rfl
  have hnotes : [.qualifier c.nameSpace, .labelled .summary c.summary,
      .labelled .remarks c.remarks].flatMap (Passage.ifFull f) = [] := h.flatMap rfl
  have hend : [.classEnd].flatMap (Passage.ifFull f) = [] := h.flatMap rfl
  simp only [hparts, List.flatMap_append, hnotes, hend, List.flatMap_assoc,
    Member.flatMap_passages h, List.flatMap_singleton, List.append_nil]
  rfl

theorem Group.flatMap_passages (f : Passage → List α) (g : Group) :
    g.passages.flatMap (Passage.ifFull f) =
      f (.nameSpace g.nameSpace (g.classes.map (·.className))) ++
        g.classes.flatMap fun c => c.passages.flatMap (Passage.ifFull f) := by
  rw [Group.passages, List.flatMap_cons, List.flatMap_assoc, Passage.ifFull_of_full rfl]

theorem flatMap_passages (f : Passage → List α) (classes : List Class) :
    (passages classes).flatMap f =
      (Group.ofClasses classes).flatMap fun g => g.passages.flatMap (Passage.ifFull f) := by
  rw [passages, flatMap_filter_isFull, List.flatMap_assoc]

end Walk

section Shown

variable {α : Type}

@[simp]
theorem shown_append (fs gs : List Fragment) :
    shownTexts (fs ++ gs) = shownTexts fs ++ shownTexts gs :=
  List.filterMap_append

theorem shown_flatMap (xs : List α) (f : α → List Fragment) :
    shownTexts (xs.flatMap f) = xs.flatMap fun x => shownTexts (f x) :=
  List.filterMap_flatMap

def HasMarkups (known : List Text) (fragments : List Fragment) : Prop :=
  ∀ s ∈ markups fragments, s ∈ known

variable {known : List Text}

@[simp]
theorem hasMarkups_append {fs gs : List Fragment} :
    HasMarkups known (fs ++ gs) ↔ HasMarkups known fs ∧ HasMarkups known gs := by
  rw [HasMarkups, markups, List.filterMap_append, List.forall_mem_append]
  rfl

theorem hasMarkups_flatMap (xs : List α) {f : α → List Fragment}
    (h : ∀ x, HasMarkups known (f x)) : HasMarkups known (xs.flatMap f) := by
  rw [HasMarkups, markups, List.filterMap_flatMap]
  exact List.forall_mem_flatMap.2 fun x _ => h x

@[simp]
theorem hasMarkups_nil : HasMarkups known [] := List.forall_mem_nil _

@[simp]
theorem hasMarkups_markup {m : Text} {fs : List Fragment} :
    HasMarkups known (.markup m :: fs) ↔ m ∈ known ∧ HasMarkups known fs :=
  List.forall_mem_cons

@[simp]
theorem hasMarkups_text {spot : Spot} {t : Text} {fs : List Fragment} :
    HasMarkups known (.text spot t :: fs) ↔ HasMarkups known fs :=
  Iff.rfl

@[simp]
theorem hasMarkups_anchor {name : Text} {fs : List Fragment} :
    HasMarkups known (.anchor name :: fs) ↔ HasMarkups known fs :=
  Iff.rfl

end Shown

end ApiDocs
