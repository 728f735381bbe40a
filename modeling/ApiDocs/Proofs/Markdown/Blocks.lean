import ApiDocs.Proofs.Markdown.Passages
import ApiDocs.Proofs.Text.Lines
import Mathlib.Data.List.Basic

namespace ApiDocs.Markdown

/-- A heading, a line with a link, or other lines. Every block begins on a line of its own, whatever
the names and descriptions are. -/
inductive Block
  | heading (text : Text) (level : Nat) (positive : 0 < level)
  | link (before text target after : Text)
  | lines (s : Text) (closed : Text.Closed s)

namespace Block

def write : Block → Text
  | heading text level _ => Markdown.heading .plain text level
  | link before text target after => before ++ "[" ++ text ++ "](#" ++ target ++ ")" ++ after ++ "\n"
  | lines s _ => s

def tag : Block → Text
  | heading text _ _ => anchorLine text
  | link _ _ _ _ | lines _ _ => []

def headingText? : Block → Option Text
  | heading text _ _ => some text
  | link _ _ _ _ | lines _ _ => none

def styled (style : HeadingStyle) (b : Block) : Text :=
  match style with
  | .plain => b.write
  | .anchorTag => b.tag ++ b.write

end Block

section Closed

theorem closed_anchorLine (text : Text) : Text.Closed (anchorLine text) :=
  Text.closed_append_of_getLast? rfl _

theorem Block.closed_write (b : Block) : Text.Closed b.write := by
  cases b with
  | heading text level _ => exact Text.closed_line _
  | link before text target after => exact Text.closed_line _
  | lines _ hs => exact hs

theorem Block.closed_tag (b : Block) : Text.Closed b.tag := by
  cases b with
  | heading text _ _ => exact closed_anchorLine text
  | link _ _ _ _ | lines _ _ => exact Text.closed_nil

theorem Block.closed_styled (style : HeadingStyle) (b : Block) : Text.Closed (b.styled style) := by
  cases style with
  | plain => exact b.closed_write
  | anchorTag => exact b.closed_tag.append b.closed_write

theorem closed_written {fs : List Fragment} {m : Text} (hfs : fs.getLast? = some (.markup m))
    (hm : m.getLast? = some '\n') : Text.Closed (written Fragment.markdown fs) := by
  obtain ⟨before, rfl⟩ := List.getLast?_eq_some_iff.1 hfs
  rw [written_append, written_cons, written_nil, List.append_nil]
  exact Text.closed_append_of_getLast? hm _

theorem closed_passageText (style : HeadingStyle) (p : Passage) :
    Text.Closed (passageText style p) := by
  have hblock {α : Type} (label : Label) (items : List α) (f : α → List Fragment) :
      Text.Closed (written Fragment.markdown (blockFragments label items f)) :=
    closed_written (m := "\n") List.getLast?_concat rfl
  have hheading (name : Text) (level : Nat) :
      Text.Closed (written Fragment.markdown (headingFragments style name level)) := by
    rw [written_headingFragments]
    exact Text.closed_line _
  cases h : p.isFull with
  | false =>
      rw [passageText, Passage.write_of_not_full h]
      exact Text.closed_nil
  | true =>
      rw [passageText, Passage.write_of_full h]
      cases p with
      | nameSpace name classNames => exact closed_written (m := "\n") List.getLast?_concat rfl
      | className name => exact hheading name 2
      | qualifier name => exact closed_written (m := "\n\n") rfl rfl
      | labelled label s => exact closed_written (m := "\n\n") rfl rfl
      | table rows => exact closed_written (m := "\n") List.getLast?_concat rfl
      | member title => exact hheading title 3
      | inherited noted => exact closed_written (m := "_\n\n") rfl rfl
      | entries label es => exact hblock label es _
      | seeAlso targets => exact hblock .seeAlso targets _
      | examples es => exact hblock .examples es _
      | lists ls => exact hblock .lists ls _
      | classEnd => exact closed_written (m := "---\n\n") rfl rfl

theorem closed_tableRow (nameSpace : Text) (m : Member) : Text.Closed (tableRow nameSpace m) :=
  Text.closed_append_of_getLast? rfl _

theorem closed_entryLine (e : Entry) : Text.Closed (entryLine e) := Text.closed_line _

theorem closed_bullet (s : Text) : Text.Closed (bullet s) := Text.closed_line _

theorem closed_seeAlsoLine (target : Text) : Text.Closed (seeAlsoLine target) := closed_bullet _

theorem closed_exampleBlock (s : Text) : Text.Closed (exampleBlock s) :=
  Text.closed_append_of_getLast? rfl _

theorem closed_contentsLine (l : Forest.Line) : Text.Closed (contentsLine l) := Text.closed_line _

end Closed

section Blocks

def emptyLine : Block := .lines "\n" (Text.closed_of_getLast? rfl)

def itemBlock (indent name : Text) : Block :=
  .link (indent ++ "- ") name (Anchor.ofHeading name) []

def rowBlock (r : MemberRow) : Block :=
  .link "| " (escapeCell r.title) (Anchor.ofHeading r.title) (" | " ++ escapeCell r.summary ++ " |")

def passageBlocks : Passage → List Block
  | .nameSpace name classNames =>
    .heading name 1 (by decide) :: .heading "Table of Contents" 2 (by decide) ::
      classNames.map (itemBlock []) ++ [emptyLine]
  | .className name => [.heading name 2 (by decide)]
  | .table rows =>
    .heading "Members" 3 (by decide) :: .lines tableHead (Text.closed_of_getLast? rfl) ::
      rows.map rowBlock ++ [emptyLine]
  | .member title => [.heading title 3 (by decide)]
  | p => [.lines (passageText .plain p) (closed_passageText .plain p)]

def contentsBlocks (groups : List Group) : List Block :=
  .heading "Table of Contents" 1 (by decide) ::
    (Group.forest groups).lines.map (fun l => itemBlock (List.replicate (2 * l.depth) ' ') l.fullName)
    ++ [emptyLine]

def blocks (classes : List Class) : List Block :=
  contentsBlocks (Group.ofClasses classes) ++ (passages classes).flatMap passageBlocks

end Blocks

section Writing

variable (style : HeadingStyle)

def writeStyled (bs : List Block) : Text := bs.flatMap (Block.styled style)

theorem writeStyled_nil : writeStyled style [] = [] := rfl

theorem writeStyled_cons (b : Block) (bs : List Block) :
    writeStyled style (b :: bs) = b.styled style ++ writeStyled style bs := List.flatMap_cons

theorem writeStyled_append (bs bs' : List Block) :
    writeStyled style (bs ++ bs') = writeStyled style bs ++ writeStyled style bs' :=
  List.flatMap_append

theorem writeStyled_map {α : Type} (xs : List α) (f : α → Block) :
    writeStyled style (xs.map f) = xs.flatMap fun x => (f x).styled style :=
  List.flatMap_map _ _ _

theorem styled_heading (text : Text) (level : Nat) (h : 0 < level) :
    (Block.heading text level h).styled style = heading style text level := by
  cases style with
  | plain => rfl
  | anchorTag => exact (List.append_assoc _ _ _).symm

theorem styled_lines (s : Text) (h : Text.Closed s) : (Block.lines s h).styled style = s := by
  cases style <;> rfl

theorem styled_link (before text target after : Text) :
    (Block.link before text target after).styled style =
      (Block.link before text target after).write := by
  cases style with
  | plain => rfl
  | anchorTag => exact List.nil_append _

theorem styled_emptyLine : emptyLine.styled style = "\n" := styled_lines style _ _

theorem styled_itemBlock (indent name : Text) :
    (itemBlock indent name).styled style = indent ++ Anchor.listItem name ++ "\n" := by
  rw [itemBlock, styled_link, Block.write]
  unfold Anchor.listItem
  simp

theorem styled_rowBlock (r : MemberRow) :
    (rowBlock r).styled style = written Fragment.markdown (rowFragments r) := by
  rw [rowBlock, styled_link, Block.write]
  simp [rowFragments, Fragment.markdown]

theorem closed_writeStyled (bs : List Block) : Text.Closed (writeStyled style bs) :=
  Text.closed_flatMap fun b _ => b.closed_styled style

theorem writeStyled_passageBlocks {p : Passage} (h : p.isFull = true) :
    writeStyled style (passageBlocks p) = written Fragment.markdown (spelling style p) := by
  have hnote {p : Passage} (hp : p.isFull = true) (hs : Text.Closed (passageText .plain p)) :
      writeStyled style [.lines (passageText .plain p) hs] =
        written Fragment.markdown (spelling .plain p) := by
    rw [writeStyled_cons, writeStyled_nil, styled_lines, List.append_nil, passageText,
      Passage.write_of_full hp]
  cases p with
  | nameSpace name classNames =>
      simp only [passageBlocks, writeStyled_cons, writeStyled_append, writeStyled_map,
        writeStyled_nil, styled_heading, styled_itemBlock, styled_emptyLine, written_nameSpace,
        List.cons_append, List.append_nil, List.append_assoc]
      rfl
  | className name =>
      rw [passageBlocks, writeStyled_cons, writeStyled_nil, styled_heading, List.append_nil]
      exact (written_headingFragments style name 2).symm
  | table rows =>
      simp only [passageBlocks, writeStyled_cons, writeStyled_append, writeStyled_map,
        writeStyled_nil, styled_heading, styled_lines, styled_rowBlock, styled_emptyLine,
        written_table, List.cons_append, List.append_nil, List.append_assoc]
  | member title =>
      rw [passageBlocks, writeStyled_cons, writeStyled_nil, styled_heading, List.append_nil]
      exact (written_headingFragments style title 3).symm
  | qualifier | labelled | inherited | entries | seeAlso | examples | lists | classEnd =>
      exact hnote h _

theorem writeStyled_contentsBlocks (groups : List Group) :
    writeStyled style (contentsBlocks groups) = contents style groups := by
  have hline (l : Forest.Line) :
      (itemBlock (List.replicate (2 * l.depth) ' ') l.fullName).styled style = contentsLine l :=
    styled_itemBlock style _ _
  simp only [contentsBlocks, contents, writeStyled_cons, writeStyled_append, writeStyled_map,
    writeStyled_nil, styled_heading, hline, styled_emptyLine, List.cons_append, List.append_nil,
    List.append_assoc]

/-- The blocks of a document are the document, with an anchor before every heading or without. -/
theorem writeStyled_blocks (classes : List Class) :
    writeStyled style (blocks classes) = render style classes := by
  rw [blocks, writeStyled_append, writeStyled_contentsBlocks, render_eq_passages, writeStyled,
    List.flatMap_assoc]
  congr 1
  refine List.flatMap_congr fun p hp => ?_
  exact writeStyled_passageBlocks style (List.mem_filter.1 hp).2

end Writing

end ApiDocs.Markdown
