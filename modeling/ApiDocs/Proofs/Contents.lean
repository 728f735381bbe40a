import ApiDocs.Proofs.Html.Sidebar
import ApiDocs.Proofs.Markdown.Anchors
import ApiDocs.Proofs.Namespace.Names

namespace ApiDocs

namespace Markdown

section Rows

variable {classes : List Class}

def contentsRow (l : Forest.Line) : Text :=
  List.replicate (2 * l.depth) ' ' ++ Anchor.listItem l.fullName

def contentsLines (classes : List Class) : List Forest.Line :=
  (Group.forest (Group.ofClasses classes)).lines

def contentsHead (style : HeadingStyle) : List Text :=
  Text.rows (heading style "Table of Contents" 1)

def contentsRest (style : HeadingStyle) (classes : List Class) : List Text :=
  [] :: Text.splitAt '\n' ((Group.ofClasses classes).flatMap (groupSection style))

theorem rows_contentsLine (l : Forest.Line) :
    Text.rows (contentsLine l) = Text.splitAt '\n' (contentsRow l) := Text.rows_line (contentsRow l)

theorem lineFeed_mem_contentsRow {l : Forest.Line} : '\n' ∈ contentsRow l ↔ '\n' ∈ l.fullName := by
  have hanchor := lineFeed_not_mem_ofHeading l.fullName
  simp [contentsRow, Anchor.listItem, hanchor]

theorem splitAt_contents (style : HeadingStyle) (classes : List Class) :
    Text.splitAt '\n' (render style classes) =
      contentsHead style ++
        (contentsLines classes).flatMap (fun l => Text.splitAt '\n' (contentsRow l)) ++
          contentsRest style classes := by
  have hhead : Text.Closed (heading style "Table of Contents" 1) := Text.closed_line _
  have hlines : Text.Closed ((contentsLines classes).flatMap contentsLine) :=
    Text.closed_flatMap fun l _ => closed_contentsLine l
  have hrows : Text.rows ((contentsLines classes).flatMap contentsLine) =
      (contentsLines classes).flatMap fun l => Text.splitAt '\n' (contentsRow l) := by
    rw [Text.rows_flatMap fun l _ => closed_contentsLine l]
    exact List.flatMap_congr fun l _ => rows_contentsLine l
  have hrender : render style classes =
      heading style "Table of Contents" 1 ++ ((contentsLines classes).flatMap contentsLine ++
        '\n' :: (Group.ofClasses classes).flatMap (groupSection style)) := by
    rw [render, contents, List.append_assoc, List.append_assoc]
    rfl
  rw [hrender, hhead.splitAt_append, hlines.splitAt_append, hrows, Text.splitAt_cons_self,
    contentsHead, contentsRest, List.append_assoc]

/-- Every full name is a beginning of a namespace, and every namespace is a full name. -/
theorem lineFeed_not_mem_contentsRows :
    (∀ l ∈ contentsLines classes, '\n' ∉ contentsRow l) ↔ ∀ c ∈ classes, '\n' ∉ c.nameSpace := by
  have hnames (q : Text) : q ∈ (contentsLines classes).map (·.fullName) ↔
      ∃ c ∈ classes, Forest.Begins q c.nameSpace := by
    rw [contentsLines, Forest.map_fullName_lines, Group.mem_fullNames_forest]
  simp only [lineFeed_mem_contentsRow]
  constructor
  · intro h c hc
    obtain ⟨l, hl, hname⟩ := List.mem_map.1
      ((hnames c.nameSpace).2 ⟨c, hc, List.prefix_refl _⟩)
    exact hname ▸ h l hl
  · intro h l hl hmem
    obtain ⟨c, hc, hbegins⟩ := (hnames l.fullName).1 (List.mem_map_of_mem hl)
    have hline : '\n' ∈ c.nameSpace ++ ['.'] := hbegins.subset (List.mem_append_left _ hmem)
    rcases List.mem_append.1 hline with hline | hline
    · exact h c hc hline
    · exact absurd hline (by decide)

theorem splitAt_contents_iff (style : HeadingStyle) (classes : List Class) :
    Text.splitAt '\n' (render style classes) =
        contentsHead style ++ (contentsLines classes).map contentsRow ++
          contentsRest style classes ↔
      ∀ c ∈ classes, '\n' ∉ c.nameSpace := by
  rw [← lineFeed_not_mem_contentsRows]
  constructor
  · intro h l hl
    -- A row never has a line feed, so no line may be a row if it has one.
    apply Text.not_mem_of_mem_splitAt (contentsRow l)
    rw [h]
    exact List.mem_append_left _ (List.mem_append_right _ (List.mem_map_of_mem hl))
  · intro h
    have hrows : (contentsLines classes).flatMap (fun l => Text.splitAt '\n' (contentsRow l)) =
        (contentsLines classes).map contentsRow := by
      rw [List.map_eq_flatMap]
      exact List.flatMap_congr fun l hl => Text.splitAt_of_not_mem (h l hl)
    rw [splitAt_contents, hrows]

end Rows
end Markdown

/-- The items of the sidebar and the lines of the table of contents are the nodes of one forest,
each with its depth. A line of the table is a row of its own in the whole table exactly when no
namespace has a line feed. -/
theorem contents_agree (classes : List Class) :
    let lines := (Group.forest (Group.ofClasses classes)).lines
    Html.readSidebar (Html.render classes) =
        lines.map (fun l => ⟨l.depth, some (Html.idOf l.fullName), Html.escape l.name⟩) ∧
      ∀ style,
        Text.splitAt '\n' (Markdown.render style classes) =
          Markdown.contentsHead style ++
            lines.flatMap (fun l => Text.splitAt '\n' (Markdown.contentsRow l)) ++
              Markdown.contentsRest style classes ∧
        (Text.splitAt '\n' (Markdown.render style classes) =
            Markdown.contentsHead style ++ lines.map Markdown.contentsRow ++
              Markdown.contentsRest style classes ↔
          ∀ c ∈ classes, '\n' ∉ c.nameSpace) :=
  ⟨Html.readSidebar_render classes, fun style =>
    ⟨Markdown.splitAt_contents style classes, Markdown.splitAt_contents_iff style classes⟩⟩

/-- Two nodes take three rows, and the second row is the end of the first node's line. -/
theorem contents_broken_line :
    let classes : List Class := [⟨"C", "A\nB", [], [], []⟩, ⟨"D", "C", [], [], []⟩]
    let lines := (Group.forest (Group.ofClasses classes)).lines
    let rows := Text.splitAt '\n' (Markdown.render .plain classes)
    lines = [⟨0, "A\nB", "A\nB"⟩, ⟨0, "C", "C"⟩] ∧
      rows.take 6 = (["# Table of Contents", "", "- [A", "B](#ab)", "- [C](#c)", ""] : List Text) ∧
      ¬ ∃ rest, rows = Markdown.contentsHead .plain ++ lines.map Markdown.contentsRow ++ rest := by
  intro classes lines rows
  have hlines : lines = [⟨0, "A\nB", "A\nB"⟩, ⟨0, "C", "C"⟩] := by decide
  refine ⟨hlines, by decide +kernel, ?_⟩
  rintro ⟨rest, h⟩
  have hfirst : Markdown.contentsRow ⟨0, "A\nB", "A\nB"⟩ ∈ rows := by
    rw [h, hlines]
    simp
  exact Text.not_mem_of_mem_splitAt _ hfirst (Markdown.lineFeed_mem_contentsRow.2 (by decide))

end ApiDocs
