import ApiDocs.Proofs.Html.Elements
import ApiDocs.Proofs.Outline

namespace ApiDocs.Html

section Reading

def headingLevel? (name : Text) : Option Nat :=
  if name = "h2" then some 2
  else if name = "h3" then some 3
  else if name = "h4" then some 4
  else none

def Piece.mark? : Piece → Option Mark
  | .tag content =>
      match headingLevel? (tagName content) with
      | some level => some (.heading level (Piece.id? (.tag content)))
      | none => (Piece.target? (.tag content)).map .link
  | .char _ => none

def marks (s : Text) : List Mark := (pieces s).filterMap Piece.mark?

end Reading

def Tag.mark? : Tag → Option Mark
  | .h2 => some (.heading 2 none)
  | .h4 => some (.heading 4 none)
  | .link target => some (.link (idOf target))
  | .heading .nameSpace name => some (.heading 2 (some (idOf name)))
  | .heading .type name => some (.heading 3 (some (idOf name)))
  | .heading .member name => some (.heading 4 (some (idOf name)))
  | _ => none

section Tags

theorem id?_written (rank : Rank) (name : Text) :
    Piece.id? (.tag (Tag.heading rank name).written) = some (idOf name) := by
  rw [Tag.written_heading, ← List.append_assoc, Piece.id?]
  cases rank with
  | nameSpace =>
      rw [show Rank.nameSpace.name ++ (" id=\"" : Text) = "h2 id=\"" from rfl, attribute?_written]
      rfl
  | type =>
      rw [show Rank.type.name ++ (" id=\"" : Text) = "h3 id=\"" from rfl, attribute?_written,
        attribute?_other]
      · rfl
      · simp
  | member =>
      rw [show Rank.member.name ++ (" id=\"" : Text) = "h4 id=\"" from rfl, attribute?_written,
        attribute?_other, attribute?_other]
      · rfl
      all_goals simp

theorem mark?_written (t : Tag) : Piece.mark? (.tag t.written) = t.mark? := by
  cases t with
  | link target =>
      have htarget : Piece.target? (.tag (Tag.link target).written) = some (idOf target) :=
        attribute?_written _ _
      exact congrArg (Option.map Mark.link) htarget
  | heading rank name =>
      have hid := id?_written rank name
      cases rank with
      | nameSpace => exact congrArg (fun anchor => some (Mark.heading 2 anchor)) hid
      | type => exact congrArg (fun anchor => some (Mark.heading 3 anchor)) hid
      | member => exact congrArg (fun anchor => some (Mark.heading 4 anchor)) hid
  | _ => rfl

theorem mark?_closing (t : Tag) : Piece.mark? (.tag ('/' :: t.name)) = none := by
  cases t with
  | heading rank => cases rank <;> rfl
  | _ => rfl

end Tags

namespace Markup

def marks (m : Markup) : List Mark := m.tags.filterMap fun content => Piece.mark? (.tag content)

theorem marks_write (m : Markup) : Html.marks m.write = m.marks := by
  rw [Html.marks, marks, ← tags_write, Html.tags, List.filterMap_filterMap]
  apply List.filterMap_congr
  intro p _
  cases p <;> rfl

theorem marks_append (m n : Markup) : (m ++ n).marks = m.marks ++ n.marks := by
  rw [marks, tags_append, List.filterMap_append]
  rfl

theorem marks_plain (s : Text) : (plain s).marks = [] := rfl

theorem marks_within (t : Tag) (m : Markup) : (within t m).marks = t.mark?.toList ++ m.marks := by
  rw [marks, tags_within, List.filterMap_cons, mark?_written, List.filterMap_append,
    List.filterMap_cons, mark?_closing]
  cases t.mark? with
  | none => exact List.append_nil _
  | some mark => exact congrArg (mark :: ·) (List.append_nil _)

theorem marks_line (m : Markup) : (line m).marks = m.marks := by
  rw [line, marks_append, marks_plain, List.append_nil]

theorem marks_all {α : Type} (f : α → Markup) (xs : List α) :
    (all f xs).marks = xs.flatMap fun x => (f x).marks := by
  induction xs with
  | nil => rfl
  | cons x xs ih => rw [all, marks_append, ih, List.flatMap_cons]

theorem marks_all_nil {α : Type} {f : α → Markup} (h : ∀ x, (f x).marks = []) (xs : List α) :
    (all f xs).marks = [] := by
  rw [marks_all]
  exact List.flatMap_eq_nil_iff.2 fun x _ => h x

theorem marks_listItem (m : Markup) : (listItem m).marks = m.marks := by
  rw [listItem, marks_line, marks_within]
  rfl

theorem marks_listElement (m : Markup) : (listElement m).marks = m.marks := by
  rw [listElement, marks_line, marks_within, marks_append]
  rfl

theorem marks_itemList {α : Type} {f : α → Markup} (h : ∀ x, (f x).marks = []) (items : List α) :
    (itemList f items).marks = [] := by
  have hitem (x : α) : (listItem (f x)).marks = [] := (marks_listItem _).trans (h x)
  rw [itemList, marks_listElement, marks_all_nil hitem]

/-- Paragraphs and lists have neither headings nor links. -/
theorem marks_note {p : Passage} (h : p.isNote = true) : (passage p).marks = [] := by
  cases p with
  | nameSpace | className | table | member => cases h
  | qualifier | labelled | inherited | classEnd => rfl
  | entries label es => exact marks_itemList (fun _ => rfl) es
  | seeAlso targets => exact marks_itemList (fun _ => rfl) targets
  | examples es => exact marks_all_nil (fun _ => rfl) es
  | lists ls => exact marks_itemList (fun _ => rfl) ls

end Markup
end ApiDocs.Html
