import ApiDocs.Proofs.Anchor
import ApiDocs.Proofs.Markdown.Blocks
import ApiDocs.Proofs.Markdown.Count

namespace ApiDocs.Markdown

def anchorRow (text : Text) : Text := "<a name=\"" ++ Anchor.ofHeading text ++ "\"></a>"

def isAnchorRow (line : Text) : Bool := Text.isStart "<a name=" line

/-- The text without the lines that begin as an anchor does, wherever they come from. -/
def withoutAnchors (s : Text) : Text :=
  Text.joinWith "\n" ((Text.splitAt '\n' s).filter fun line => !isAnchorRow line)

section Rows

theorem lineFeed_not_mem_ofHeading (text : Text) : '\n' ∉ Anchor.ofHeading text :=
  Anchor.not_mem_ofHeading (by decide +kernel) text

theorem lineFeed_not_mem_anchorRow (text : Text) : '\n' ∉ anchorRow text := by
  unfold anchorRow
  simp [lineFeed_not_mem_ofHeading]

theorem rows_anchorLine (text : Text) : Text.rows (anchorLine text) = [anchorRow text] := by
  have hend : ("\"></a>\n" : Text) = "\"></a>" ++ "\n" := rfl
  unfold anchorLine
  rw [hend, ← List.append_assoc, Text.rows_line]
  exact Text.splitAt_of_not_mem (lineFeed_not_mem_anchorRow text)

theorem rows_tag (b : Block) : Text.rows b.tag = b.headingText?.toList.map anchorRow := by
  cases b with
  | heading text _ _ => exact rows_anchorLine text
  | link _ _ _ _ | lines _ _ => rfl

theorem rows_styled_anchorTag (b : Block) :
    Text.rows (b.styled .anchorTag) = b.headingText?.toList.map anchorRow ++ Text.rows b.write := by
  rw [Block.styled, b.closed_tag.rows_append, rows_tag]

theorem splitAt_render (style : HeadingStyle) (classes : List Class) :
    Text.splitAt '\n' (render style classes) =
      (blocks classes).flatMap (fun b => Text.rows (b.styled style)) ++ [[]] := by
  rw [← writeStyled_blocks, (closed_writeStyled style _).splitAt_eq, writeStyled,
    Text.rows_flatMap fun b _ => b.closed_styled style]

end Rows

section Inserted

theorem length_rows_anchorTag (bs : List Block) :
    (bs.flatMap fun b => Text.rows (b.styled .anchorTag)).length =
      (bs.flatMap fun b => Text.rows (b.styled .plain)).length +
        (bs.filterMap Block.headingText?).length := by
  rw [List.filterMap_eq_flatMap_toList]
  induction bs with
  | nil => rfl
  | cons b bs ih =>
      rw [List.flatMap_cons, List.flatMap_cons, List.flatMap_cons, List.length_append,
        List.length_append, List.length_append, ih, rows_styled_anchorTag, List.length_append,
        List.length_map, Block.styled]
      omega

theorem filter_rows_anchorTag (b : Block) :
    (Text.rows (b.styled .anchorTag)).filter (fun line => !isAnchorRow line) =
      (Text.rows (b.styled .plain)).filter (fun line => !isAnchorRow line) := by
  rw [rows_styled_anchorTag, List.filter_append]
  cases b <;> rfl

theorem withoutAnchors_render (classes : List Class) :
    withoutAnchors (render .anchorTag classes) = withoutAnchors (render .plain classes) := by
  rw [withoutAnchors, withoutAnchors, splitAt_render, splitAt_render, List.filter_append,
    List.filter_append, List.filter_flatMap, List.filter_flatMap]
  simp only [filter_rows_anchorTag]

/-- With anchors, a document is the plain one with one more line in front of each heading. Every
heading is at the start of a line, whatever stands before it, and no anchor has a line feed. Without
all lines that begin as an anchor does, also those that names or descriptions bring along, both are
the same. -/
theorem anchors_inserted (classes : List Class) :
    let bs := blocks classes
    render .plain classes = bs.flatMap Block.write ∧
      render .anchorTag classes = bs.flatMap (fun b => b.tag ++ b.write) ∧
      bs.filterMap Block.headingText? = headings classes ∧
      (headings classes).length = headingCount classes ∧
      (∀ before text level positive after, bs = before ++ .heading text level positive :: after →
        Text.Closed (before.flatMap Block.write) ∧
          Text.Closed (before.flatMap fun b => b.tag ++ b.write)) ∧
      (∀ text, Text.splitAt '\n' (anchorLine text) = [anchorRow text, []]) ∧
      (Text.splitAt '\n' (render .anchorTag classes)).length =
        (Text.splitAt '\n' (render .plain classes)).length + headingCount classes ∧
      withoutAnchors (render .anchorTag classes) = withoutAnchors (render .plain classes) := by
  intro bs
  have hcount : (bs.filterMap Block.headingText?).length = headingCount classes := by
    rw [headingTexts_blocks, length_headings]
  refine ⟨(writeStyled_blocks .plain classes).symm, (writeStyled_blocks .anchorTag classes).symm,
    headingTexts_blocks classes, length_headings classes, ?_, ?_, ?_, withoutAnchors_render classes⟩
  · intro before text level positive after _
    exact ⟨closed_writeStyled .plain before, closed_writeStyled .anchorTag before⟩
  · intro text
    rw [(closed_anchorLine text).splitAt_eq, rows_anchorLine]
    rfl
  · rw [splitAt_render, splitAt_render, List.length_append, List.length_append,
      length_rows_anchorTag, hcount]
    omega

end Inserted
end ApiDocs.Markdown
