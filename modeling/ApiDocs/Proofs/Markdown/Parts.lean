import ApiDocs.Proofs.Markdown.Blocks

namespace ApiDocs.Markdown

/-- The parts written one after another are the document, and its headings, anchor tags and links
are parts of their own. -/
inductive Part
  | anchor (name : Text)
  | heading (text : Text) (level : Nat)
  | link (text target : Text)
  | plain (s : Text)
deriving DecidableEq

namespace Part

def write : Part → Text
  | anchor name => "<a name=\"" ++ name ++ "\"></a>\n"
  | heading text level => headingLine text level
  | link text target => "[" ++ text ++ "](#" ++ target ++ ")"
  | plain s => s

def target? : Part → Option Text
  | link _ target => some target
  | _ => none

def headingText? : Part → Option Text
  | heading text _ => some text
  | _ => none

def anchorName? : Part → Option Text
  | anchor name => some name
  | _ => none

end Part

def writeAll (ps : List Part) : Text := ps.flatMap Part.write

def linkTargets (ps : List Part) : List Text := ps.filterMap Part.target?

def headingTexts (ps : List Part) : List Text := ps.filterMap Part.headingText?

def anchorNames (ps : List Part) : List Text := ps.filterMap Part.anchorName?

section Parts

def headingParts (style : HeadingStyle) (text : Text) (level : Nat) : List Part :=
  match style with
  | .plain => [.heading text level, .plain "\n"]
  | .anchorTag => [.anchor (Anchor.ofHeading text), .heading text level, .plain "\n"]

def Block.parts (style : HeadingStyle) : Block → List Part
  | heading text level _ => headingParts style text level
  | link before text target after => [.plain before, .link text target, .plain (after ++ "\n")]
  | lines s _ => [.plain s]

def parts (style : HeadingStyle) (classes : List Class) : List Part :=
  (blocks classes).flatMap (Block.parts style)

theorem writeAll_nil : writeAll [] = [] := rfl

theorem writeAll_plain (s : Text) (ps : List Part) :
    writeAll (.plain s :: ps) = s ++ writeAll ps :=
  List.flatMap_cons

theorem writeAll_link (text target : Text) (ps : List Part) :
    writeAll (.link text target :: ps) = "[" ++ text ++ "](#" ++ target ++ ")" ++ writeAll ps :=
  List.flatMap_cons

theorem writeAll_headingParts (style : HeadingStyle) (text : Text) (level : Nat) :
    writeAll (headingParts style text level) = heading style text level := by
  cases style with
  | plain => rfl
  | anchorTag => exact (List.append_assoc _ _ _).symm

theorem writeAll_blockParts (style : HeadingStyle) (b : Block) :
    writeAll (b.parts style) = b.styled style := by
  cases b with
  | heading text level h =>
      rw [styled_heading]
      exact writeAll_headingParts style text level
  | link before text target after =>
      rw [styled_link, Block.parts, Block.write]
      simp only [writeAll_plain, writeAll_link, writeAll_nil, List.append_assoc, List.append_nil]
  | lines s h =>
      rw [styled_lines]
      exact List.append_nil s

theorem writeAll_parts (style : HeadingStyle) (classes : List Class) :
    writeAll (parts style classes) = render style classes := by
  rw [← writeStyled_blocks, parts, writeAll, List.flatMap_assoc]
  exact List.flatMap_congr fun b _ => writeAll_blockParts style b

end Parts

section Lists

def anchored (style : HeadingStyle) (headings : List Text) : List Text :=
  match style with
  | .plain => []
  | .anchorTag => headings.map Anchor.ofHeading

theorem headingTexts_parts (style : HeadingStyle) (bs : List Block) :
    headingTexts (bs.flatMap (Block.parts style)) = bs.filterMap Block.headingText? := by
  rw [headingTexts, List.filterMap_flatMap, List.filterMap_eq_flatMap_toList]
  refine List.flatMap_congr fun b _ => ?_
  cases b with
  | heading => cases style <;> rfl
  | link | lines => rfl

theorem anchorNames_parts (style : HeadingStyle) (bs : List Block) :
    anchorNames (bs.flatMap (Block.parts style)) =
      anchored style (bs.filterMap Block.headingText?) := by
  induction bs with
  | nil => cases style <;> rfl
  | cons b bs ih =>
      cases b with
      | heading text =>
          cases style with
          | plain => exact ih
          | anchorTag => exact congrArg (Anchor.ofHeading text :: ·) ih
      | link | lines => exact ih

end Lists

end ApiDocs.Markdown
