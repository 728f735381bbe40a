import ApiDocs.Proofs.Markdown.Parts
import ApiDocs.Proofs.Outline

namespace ApiDocs.Markdown

/-- The anchor of a heading is made from its text, or it is the name of the anchor tag right before
the heading if the style writes such tags. -/
def carried (style : HeadingStyle) (tag : Option Text) (text : Text) : Option Text :=
  match style with
  | .plain => some (Anchor.ofHeading text)
  | .anchorTag => tag

def marks (style : HeadingStyle) : (tag : Option Text) → List Part → List Mark
  | _, [] => []
  | _, .anchor name :: ps => marks style (some name) ps
  | tag, .heading text level :: ps =>
      .heading level (carried style tag text) :: marks style none ps
  | _, .link _ target :: ps => .link target :: marks style none ps
  | _, .plain _ :: ps => marks style none ps

def outline (style : HeadingStyle) (ps : List Part) : Outline :=
  readOutline 1 true (marks style none ps)

def layout : Layout where
  level := 1
  titled := true
  anchor := Anchor.ofHeading
  title text := some (Anchor.ofHeading text)

def Block.mark? : Block → Option Mark
  | heading text level _ => some (.heading level (some (Anchor.ofHeading text)))
  | link _ _ target _ => some (.link target)
  | lines _ _ => none

section Marks

variable (style : HeadingStyle)

theorem marks_blocks (bs : List Block) :
    marks style none (bs.flatMap (Block.parts style)) = bs.filterMap Block.mark? := by
  induction bs with
  | nil => rfl
  | cons b bs ih =>
      cases b with
      | heading text level =>
          cases style <;> exact congrArg (Mark.heading level (some (Anchor.ofHeading text)) :: ·) ih
      | link before text target after => exact congrArg (Mark.link target :: ·) ih
      | lines => exact ih

theorem marks_links {α : Type} (xs : List α) {f : α → Block} {g : α → Text}
    (h : ∀ x, (f x).mark? = some (.link (layout.anchor (g x)))) :
    (xs.map f ++ [emptyLine]).filterMap Block.mark? = layout.links (xs.map g) := by
  have hlinks : xs.filterMap (Block.mark? ∘ f) = layout.links (xs.map g) := by
    rw [Layout.links, List.map_map, ← List.filterMap_eq_map]
    exact List.filterMap_congr fun x _ => h x
  rw [List.filterMap_append, List.filterMap_map, hlinks]
  exact List.append_nil _

theorem marks_passageBlocks (p : Passage) :
    (passageBlocks p).filterMap Block.mark? = layout.passageMarks p := by
  cases p with
  | nameSpace name classNames =>
      have hlinks := marks_links classNames (f := itemBlock []) (g := id) fun _ => rfl
      rw [List.map_id] at hlinks
      exact congrArg (_ :: _ :: ·) hlinks
  | table rows =>
      have hlinks := marks_links rows (f := rowBlock) (g := (·.title)) fun _ => rfl
      exact congrArg (_ :: ·) hlinks
  | className | member => rfl
  | qualifier | labelled | inherited | entries | seeAlso | examples | lists | classEnd => rfl

theorem marks_contentsBlocks (groups : List Group) :
    (contentsBlocks groups).filterMap Block.mark? = (layout.contentsChapter groups).write 1 := by
  have hlinks := marks_links (Group.forest groups).lines (g := (·.fullName))
    (f := fun l => itemBlock (List.replicate (2 * l.depth) ' ') l.fullName) fun _ => rfl
  rw [Forest.map_fullName_lines] at hlinks
  exact congrArg (_ :: ·) hlinks

theorem marks_parts (classes : List Class) :
    marks style none (parts style classes) = layout.marks (Group.ofClasses classes) := by
  rw [parts, marks_blocks, blocks, List.filterMap_append, marks_contentsBlocks,
    List.filterMap_flatMap, funext marks_passageBlocks, layout.marks_eq_passages]
  rfl

/-- A document has the outline of its groups, in both styles. -/
theorem outline_parts (classes : List Class) :
    outline style (parts style classes) = layout.outline (Group.ofClasses classes) := by
  rw [outline, marks_parts]
  exact layout.read_marks (Group.ofClasses classes)

end Marks

section Targets

theorem targets_marks (style : HeadingStyle) (tag : Option Text) (ps : List Part) :
    targets (marks style tag ps) = linkTargets ps := by
  induction ps generalizing tag with
  | nil => rfl
  | cons p ps ih =>
      cases p with
      | anchor name => exact ih (some name)
      | heading text level => exact ih none
      | link text target => exact congrArg (target :: ·) (ih none)
      | plain s => exact ih none

theorem linkTargets_parts (style : HeadingStyle) (classes : List Class) :
    let groups := Group.ofClasses classes
    linkTargets (parts style classes) =
      ((Group.forest groups).fullNames ++ groups.flatMap Group.linkedNames).map Anchor.ofHeading := by
  intro groups
  rw [← targets_marks style none, marks_parts]
  exact layout.targets_marks groups

end Targets

end ApiDocs.Markdown
