import ApiDocs.Anchor
import ApiDocs.Namespace.Forest
import ApiDocs.Namespace.Group

namespace ApiDocs.Markdown

inductive HeadingStyle
  | plain
  | anchorTag
deriving DecidableEq, Repr

def headingLine (text : Text) (level : Nat) : Text :=
  List.replicate level '#' ++ " " ++ text ++ "\n"

def anchorLine (text : Text) : Text := "<a name=\"" ++ Anchor.ofHeading text ++ "\"></a>\n"

def HeadingStyle.heading (style : HeadingStyle) (text : Text) (level : Nat) : Text :=
  match style with
  | .plain => headingLine text level
  | .anchorTag => anchorLine text ++ headingLine text level

def heading (style : HeadingStyle) (text : Text) (level : Nat) : Text :=
  style.heading text level ++ "\n"

def labelled (label text : Text) : Text :=
  Text.ifAny text ("**" ++ label ++ ":**\n" ++ text ++ "\n\n")

def block {α : Type} (label : Text) (items : List α) (write : α → Text) : Text :=
  Text.ifAny items ("**" ++ label ++ ":**\n" ++ items.flatMap write ++ "\n")

def bullet (s : Text) : Text := "- " ++ s ++ "\n"

def entryLine (e : Entry) : Text := "- **" ++ e.name ++ ":** " ++ e.description ++ "\n"

def exampleBlock (s : Text) : Text := "```\n" ++ s ++ "\n```\n"

def seeAlsoLine (target : Text) : Text := bullet (Identifier.withoutKind target)

def inheritedNote (m : Member) : Text :=
  if m.inheritDoc then "_Inherits documentation from the base member._\n\n" else []

def memberSection (style : HeadingStyle) (nameSpace : Text) (m : Member) : Text :=
  heading style (m.title nameSpace) 3
    ++ labelled "Summary" m.summary
    ++ labelled "Remarks" m.remarks
    ++ inheritedNote m
    ++ block "Parameters" m.parameters entryLine
    ++ block "Type Parameters" m.typeParameters entryLine
    ++ block "Exceptions" m.exceptions entryLine
    ++ labelled "Returns" m.returns
    ++ labelled "Value" m.value
    ++ labelled "Permission" m.permission
    ++ labelled "Overloads" m.overloads
    ++ block "See Also" m.seeAlso seeAlsoLine
    ++ block "Examples" m.examples exampleBlock
    ++ block "Lists" m.lists bullet

/-- A bar would end the cell. -/
def escapeCell (s : Text) : Text := s.flatMap fun c => if c = '|' then ['\\', '|'] else [c]

theorem escapeCell_cons (c : Char) (s : Text) :
    escapeCell (c :: s) = (if c = '|' then ['\\', '|'] else [c]) ++ escapeCell s :=
  List.flatMap_cons

def tableRow (nameSpace : Text) (m : Member) : Text :=
  let title := m.title nameSpace
  "| [" ++ escapeCell title ++ "](#" ++ Anchor.ofHeading title ++ ") | "
    ++ escapeCell m.summary ++ " |\n"

def tableHead : Text := "| Name | Summary |\n| --- | --- |\n"

def memberTable (style : HeadingStyle) (c : Class) : Text :=
  Text.ifAny c.members
    (heading style "Members" 3 ++ tableHead ++ c.members.flatMap (tableRow c.nameSpace) ++ "\n")

def classSection (style : HeadingStyle) (c : Class) : Text :=
  heading style c.className 2
    ++ ("**Namespace:** " ++ c.nameSpace ++ "\n\n")
    ++ labelled "Summary" c.summary
    ++ labelled "Remarks" c.remarks
    ++ memberTable style c
    ++ c.members.flatMap (memberSection style c.nameSpace)
    ++ "---\n\n"

def classLine (c : Class) : Text := Anchor.listItem c.className ++ "\n"

def groupSection (style : HeadingStyle) (g : Group) : Text :=
  heading style g.nameSpace 1
    ++ heading style "Table of Contents" 2
    ++ g.classes.flatMap classLine
    ++ "\n"
    ++ g.classes.flatMap (classSection style)

def contentsLine (l : Forest.Line) : Text :=
  List.replicate (2 * l.depth) ' ' ++ Anchor.listItem l.fullName ++ "\n"

def contents (style : HeadingStyle) (groups : List Group) : Text :=
  heading style "Table of Contents" 1
    ++ (Group.forest groups).lines.flatMap contentsLine
    ++ "\n"

def render (style : HeadingStyle) (classes : List Class) : Text :=
  let groups := Group.ofClasses classes
  contents style groups ++ groups.flatMap (groupSection style)

end ApiDocs.Markdown
