import ApiDocs.Proofs.Html.Markup
import ApiDocs.Proofs.Html.Passages

namespace ApiDocs.Html.Markup

section Parts

def plain (s : Text) : Markup := text false s nil

def within (t : Tag) (inside : Markup) : Markup := element t inside nil

def alone (t : VoidTag) : Markup := void t nil

def line (m : Markup) : Markup := m ++ plain "\n"

def link (target text : Text) (breaking : Bool) : Markup :=
  within (.link target) (.text breaking text nil)

def headingElement (rank : Rank) (text : Text) : Markup :=
  line (within (.heading rank text) (plain text))

def strongLabel (label : Text) : Markup := within .strong (plain (label ++ ":"))

def labelParagraph (label : Text) : Markup := line (within .p (strongLabel label))

def labelledParagraph (label text : Text) : Markup :=
  line (within .p (strongLabel label ++ plain (" " ++ text)))

def listItem (content : Markup) : Markup := line (within .li content)

def listElement (items : Markup) : Markup := line (within .ul (plain "\n" ++ items))

def itemList {α : Type} (f : α → Markup) (items : List α) : Markup :=
  listElement (all (fun x => listItem (f x)) items)

def entryText (e : Entry) : Markup := strongLabel e.name ++ plain (" " ++ e.description)

def seeAlsoText (target : Text) : Markup := plain (Identifier.withoutKind target)

def exampleBlock (s : Text) : Markup := line (within .pre (within .code (plain s)))

def tableRow (r : MemberRow) : Markup :=
  line (within .tr (within .td (link r.title r.title r.long) ++ within .td (plain r.summary)))

def tableHead : Markup :=
  line (within .tr (within .th (plain "Name") ++ within .th (plain "Summary")))

def tableTitle : Markup := line (within .h4 (plain "Members"))

def passage : Passage → Markup
  | .nameSpace name classNames =>
    headingElement .nameSpace name ++ itemList (fun name => link name name false) classNames
  | .className name => headingElement .type name
  | .qualifier name => labelledParagraph "Namespace" name
  | .labelled label s => labelledParagraph label.text s
  | .table rows =>
    tableTitle ++ line (within .table (plain "\n" ++ tableHead ++ all tableRow rows))
  | .member title => headingElement .member title
  | .inherited _ => line (within .p (within .em (plain Passage.inheritedText)))
  | .entries label es => labelParagraph label.text ++ itemList entryText es
  | .seeAlso targets => labelParagraph "See Also" ++ itemList seeAlsoText targets
  | .examples es => labelParagraph "Examples" ++ all exampleBlock es
  | .lists ls => labelParagraph "Lists" ++ itemList plain ls
  | .classEnd => line (alone .rule)

def childList (items : Markup) : Forest → Markup
  | .nil => nil
  | .node .. => plain "\n" ++ listElement items

def sidebarItems : Forest → Markup
  | .nil => nil
  | .node name fullName children siblings =>
    listItem (link fullName name false ++ childList (sidebarItems children) children)
      ++ sidebarItems siblings

def sidebarTitle : Markup := line (within .h2 (plain "Table of Contents"))

def sidebar (f : Forest) : Markup :=
  line (within .sidebar (plain "\n" ++ sidebarTitle ++ listElement (sidebarItems f)))

def pane (ps : List Passage) : Markup := line (within .content (plain "\n" ++ all passage ps))

def head : Markup :=
  line (within .head
    (plain "\n" ++ line (alone .charset) ++ line (alone .viewport)
      ++ line (within .title (plain "Documentation")) ++ line (alone .stylesheet)))

def body (classes : List Class) : Markup :=
  line (within .body
    (plain "\n" ++ sidebar (Group.forest (Group.ofClasses classes)) ++ pane (passages classes)))

def page (classes : List Class) : Markup :=
  line (alone .doctype) ++ line (within .html (plain "\n" ++ head ++ body classes))

end Parts

section Writing

theorem write_plain (s : Text) : (plain s).write = escape s := List.append_nil _

theorem write_within (t : Tag) (m : Markup) :
    (within t m).write = "<" ++ t.written ++ ">" ++ m.write ++ ("<" ++ ('/' :: t.name) ++ ">") :=
  List.append_nil _

theorem write_line (m : Markup) : (line m).write = m.write ++ "\n" := write_append m (plain "\n")

theorem write_link (target text : Text) (breaking : Bool) :
    (link target text breaking).write = Html.link target (shown breaking text) := by
  unfold Html.link
  simp only [link, write_within, write, Tag.written_link, String.reduceToList, List.append_assoc,
    List.cons_append, List.nil_append, List.append_nil]
  rfl

theorem write_headingElement (rank : Rank) (text : Text) :
    (headingElement rank text).write = Html.headingElement rank.name text := by
  unfold Html.headingElement
  simp only [headingElement, write_line, write_within, write_plain, Tag.written_heading,
    String.reduceToList, List.append_assoc, List.cons_append, List.nil_append]
  rfl

theorem write_strongLabel (label : Text) :
    (strongLabel label).write = "<strong>" ++ escape label ++ ":</strong>" := by
  simp only [strongLabel, write_within, write_plain, escape_append, String.reduceToList,
    List.append_assoc, List.cons_append, List.nil_append]
  rfl

section Labels

variable {label : Text} (h : escape label = label)
include h

theorem write_labelParagraph : (labelParagraph label).write = Html.labelParagraph label := by
  unfold Html.labelParagraph
  simp only [labelParagraph, write_line, write_within, write_strongLabel, h, String.reduceToList,
    List.append_assoc, List.cons_append, List.nil_append]
  rfl

theorem write_labelledParagraph (text : Text) :
    (labelledParagraph label text).write = Html.labelledParagraph label text := by
  unfold Html.labelledParagraph
  simp only [labelledParagraph, write_line, write_within, write_append, write_strongLabel,
    write_plain, h, String.reduceToList, List.append_assoc, List.cons_append, List.nil_append]
  rfl

end Labels

theorem write_listItem (m : Markup) : (listItem m).write = Html.listItem m.write := by
  unfold Html.listItem
  simp only [listItem, write_line, write_within, String.reduceToList, List.append_assoc,
    List.cons_append, List.nil_append]
  rfl

theorem write_listElement (m : Markup) : (listElement m).write = Html.listElement m.write := by
  unfold Html.listElement
  simp only [listElement, write_line, write_within, write_append, write_plain, String.reduceToList,
    List.append_assoc, List.cons_append, List.nil_append]
  rfl

theorem write_itemList {α : Type} (f : α → Markup) (items : List α) :
    (itemList f items).write =
      Html.listElement (items.flatMap fun x => Html.listItem (f x).write) := by
  simp only [itemList, write_listElement, write_all, write_listItem]

theorem write_entryText (e : Entry) : (entryText e).write = Html.entryText e := by
  unfold Html.entryText
  simp only [entryText, write_append, write_strongLabel, write_plain, String.reduceToList,
    List.append_assoc, List.cons_append, List.nil_append]
  rfl

theorem write_exampleBlock (s : Text) : (exampleBlock s).write = Html.exampleBlock s := by
  unfold Html.exampleBlock
  simp only [exampleBlock, write_line, write_within, write_plain, String.reduceToList,
    List.append_assoc, List.cons_append, List.nil_append]
  rfl

theorem write_tableRow (r : MemberRow) :
    (tableRow r).write = written Fragment.html (rowFragments r) := by
  rw [written_rowFragments]
  simp only [tableRow, write_line, write_within, write_append, write_plain, write_link, shown,
    String.reduceToList, List.append_assoc, List.cons_append, List.nil_append]
  rfl

theorem write_table (rows : List MemberRow) :
    (passage (.table rows)).write = written Fragment.html (spelling (.table rows)) := by
  have htitle : tableTitle.write = "<h4>Members</h4>\n" := by decide
  have hhead : tableHead.write = "<tr><th>Name</th><th>Summary</th></tr>\n" := by decide
  rw [written_table]
  simp only [passage, write_append, htitle, write_line, write_within, hhead, write_all,
    write_tableRow, write_plain, String.reduceToList, List.append_assoc, List.cons_append,
    List.nil_append]
  rfl

/-- The tree of a passage writes what the passage spells. -/
theorem write_passage (p : Passage) :
    (passage p).write = written Fragment.html (spelling p) := by
  cases p with
  | nameSpace name classNames =>
      have hlink (name : Text) : (link name name false).write = Html.link name (escape name) :=
        write_link name name false
      rw [written_nameSpace, passage, write_append, write_headingElement, write_itemList]
      simp only [hlink]
      rfl
  | className name => exact (write_headingElement .type name).trans (written_headingFragments _ _).symm
  | qualifier name => exact (write_labelledParagraph rfl name).trans (written_qualifier name).symm
  | labelled label s =>
      exact (write_labelledParagraph (escape_label label) s).trans (written_labelled label s).symm
  | table rows => exact write_table rows
  | member title => exact (write_headingElement .member title).trans (written_headingFragments _ _).symm
  | inherited noted => rfl
  | entries label es =>
      rw [written_entries, passage, write_append, write_labelParagraph (escape_label label),
        write_itemList]
      simp only [write_entryText]
  | seeAlso targets =>
      rw [written_seeAlso, passage, write_append, write_labelParagraph rfl, write_itemList]
      simp only [seeAlsoText, write_plain]
      rfl
  | examples es =>
      rw [written_examples, passage, write_append, write_labelParagraph rfl, write_all,
        funext write_exampleBlock]
  | lists ls =>
      rw [written_lists, passage, write_append, write_labelParagraph rfl, write_itemList]
      simp only [write_plain]
  | classEnd => decide

theorem write_childList (items : Markup) (children : Forest) :
    (childList items children).write =
      match children with
      | .nil => []
      | _ => "\n" ++ Html.listElement items.write := by
  cases children with
  | nil => rfl
  | node => rw [childList, write_append, write_listElement, write_plain]; rfl

theorem listItem_append (s t : Text) : Html.listItem (s ++ t) = "<li>" ++ s ++ t ++ "</li>\n" := by
  unfold Html.listItem
  rw [← List.append_assoc]

theorem write_sidebarItems (f : Forest) : (sidebarItems f).write = Html.sidebarItems f := by
  induction f with
  | nil => rfl
  | node name fullName children siblings ihc ihs =>
      rw [sidebarItems, write_append, write_listItem, write_append, write_link, write_childList, ihc,
        ihs, listItem_append]
      rfl

theorem write_sidebar (f : Forest) : (sidebar f).write = Html.sidebar f := by
  have htitle : sidebarTitle.write = "<h2>Table of Contents</h2>\n" := by decide
  unfold Html.sidebar
  simp only [sidebar, write_line, write_within, write_append, htitle, write_listElement,
    write_sidebarItems, write_plain, String.reduceToList, List.append_assoc, List.cons_append,
    List.nil_append]
  rfl

theorem write_pane (classes : List Class) :
    (pane (passages classes)).write = Html.pane (Group.ofClasses classes) := by
  rw [pane_eq_passages]
  simp only [pane, write_line, write_within, write_append, write_all, write_passage,
    write_plain, String.reduceToList, List.append_assoc, List.cons_append, List.nil_append]
  rfl

theorem write_head :
    (line (alone .doctype)).write ++ "<html lang=\"en\">\n" ++ head.write = Html.head := by
  decide +kernel

theorem write_page (classes : List Class) : (page classes).write = render classes := by
  unfold Html.render
  simp only [page, body, ← write_head, write_line, write_within, write_append, write_sidebar,
    write_pane, write_plain, String.reduceToList, List.append_assoc, List.cons_append,
    List.nil_append]
  rfl

end Writing

section Tags

theorem tags_plain (s : Text) : (plain s).tags = [] := rfl

theorem tags_within (t : Tag) (m : Markup) :
    (within t m).tags = t.written :: (m.tags ++ ['/' :: t.name]) := rfl

theorem tags_line (m : Markup) : (line m).tags = m.tags := by
  rw [line, tags_append, tags_plain, List.append_nil]

theorem tags_link (target text : Text) (breaking : Bool) :
    (link target text breaking).tags = [(Tag.link target).written, '/' :: (Tag.link target).name] :=
  rfl

end Tags
end ApiDocs.Html.Markup
