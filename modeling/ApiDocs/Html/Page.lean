import ApiDocs.Anchor
import ApiDocs.Html.Escape
import ApiDocs.Namespace.Forest
import ApiDocs.Namespace.Group

namespace ApiDocs.Html

/-- A longer identifier gets places to break. -/
def longName : Nat := 75

def idOf (s : Text) : Text := escape (Anchor.ofId s)

def link (target text : Text) : Text := "<a href=\"#" ++ idOf target ++ "\">" ++ text ++ "</a>"

def headingElement (tag text : Text) : Text :=
  "<" ++ tag ++ " id=\"" ++ idOf text ++ "\">" ++ escape text ++ "</" ++ tag ++ ">\n"

def labelParagraph (label : Text) : Text := "<p><strong>" ++ label ++ ":</strong></p>\n"

def labelledParagraph (label text : Text) : Text :=
  "<p><strong>" ++ label ++ ":</strong> " ++ escape text ++ "</p>\n"

def labelled (label text : Text) : Text := Text.ifAny text (labelledParagraph label text)

def listItem (content : Text) : Text := "<li>" ++ content ++ "</li>\n"

def listElement (items : Text) : Text := "<ul>\n" ++ items ++ "</ul>\n"

def labelledList {α : Type} (label : Text) (items : List α) (write : α → Text) : Text :=
  Text.ifAny items
    (labelParagraph label ++ listElement (items.flatMap fun x => listItem (write x)))

def entryText (e : Entry) : Text :=
  "<strong>" ++ escape e.name ++ ":</strong> " ++ escape e.description

def seeAlsoText (target : Text) : Text := escape (Identifier.withoutKind target)

def exampleBlock (s : Text) : Text := "<pre><code>" ++ escape s ++ "</code></pre>\n"

def exampleBlocks (examples : List Text) : Text :=
  Text.ifAny examples (labelParagraph "Examples" ++ examples.flatMap exampleBlock)

def inheritedNote (m : Member) : Text :=
  if m.inheritDoc then "<p><em>Inherits documentation from the base member.</em></p>\n" else []

def memberSection (nameSpace : Text) (m : Member) : Text :=
  headingElement "h4" (m.title nameSpace)
    ++ labelled "Summary" m.summary
    ++ labelled "Remarks" m.remarks
    ++ inheritedNote m
    ++ labelledList "Parameters" m.parameters entryText
    ++ labelledList "Type Parameters" m.typeParameters entryText
    ++ labelledList "Exceptions" m.exceptions entryText
    ++ labelled "Returns" m.returns
    ++ labelled "Value" m.value
    ++ labelled "Permission" m.permission
    ++ labelled "Overloads" m.overloads
    ++ labelledList "See Also" m.seeAlso seeAlsoText
    ++ exampleBlocks m.examples
    ++ labelledList "Lists" m.lists escape

/-- The text of a link to a member. The identifier decides whether it may break. -/
def linkText (title identifier : Text) : Text :=
  if longName < identifier.length then withBreaks (escape title) else escape title

def tableRow (nameSpace : Text) (m : Member) : Text :=
  let title := m.title nameSpace
  "<tr><td>" ++ link title (linkText title (Identifier.withoutKind m.name)) ++ "</td><td>"
    ++ escape m.summary ++ "</td></tr>\n"

def memberTable (c : Class) : Text :=
  Text.ifAny c.members
    ("<h4>Members</h4>\n<table>\n<tr><th>Name</th><th>Summary</th></tr>\n"
      ++ c.members.flatMap (tableRow c.nameSpace) ++ "</table>\n")

def classSection (c : Class) : Text :=
  headingElement "h3" c.className
    ++ labelledParagraph "Namespace" c.nameSpace
    ++ labelled "Summary" c.summary
    ++ labelled "Remarks" c.remarks
    ++ memberTable c
    ++ c.members.flatMap (memberSection c.nameSpace)
    ++ "<hr>\n"

def classItem (c : Class) : Text := listItem (link c.className (escape c.className))

def groupSection (g : Group) : Text :=
  headingElement "h2" g.nameSpace
    ++ listElement (g.classes.flatMap classItem)
    ++ g.classes.flatMap classSection

def sidebarItems : Forest → Text
  | .nil => []
  | .node name fullName children siblings =>
    "<li>" ++ link fullName (escape name)
      ++ (match children with
        | .nil => []
        | _ => "\n" ++ listElement (sidebarItems children))
      ++ "</li>\n" ++ sidebarItems siblings

def sidebar (f : Forest) : Text :=
  "<div class=\"sidebar\">\n<h2>Table of Contents</h2>\n" ++ listElement (sidebarItems f)
    ++ "</div>\n"

def pane (groups : List Group) : Text :=
  "<div class=\"content\">\n" ++ groups.flatMap groupSection ++ "</div>\n"

def head : Text :=
  "<!DOCTYPE html>\n<html lang=\"en\">\n<head>\n<meta charset=\"UTF-8\">\n"
    ++ "<meta name=\"viewport\" content=\"width=device-width, initial-scale=1.0\">\n"
    ++ "<title>Documentation</title>\n<link rel=\"stylesheet\" href=\"styles.css\">\n</head>\n"

def render (classes : List Class) : Text :=
  let groups := Group.ofClasses classes
  head ++ "<body>\n" ++ sidebar (Group.forest groups) ++ pane groups ++ "</body>\n</html>\n"

end ApiDocs.Html
