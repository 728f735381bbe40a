import ApiDocs.Markdown
import ApiDocs.Html.Page
import ApiDocs.Json.Document

namespace ApiDocs

inductive Format
  | markdown (style : Markdown.HeadingStyle)
  | html
  | json
deriving DecidableEq, Repr

namespace Format

def ofName? (name : Text) : Option Format :=
  if name = "markdown" ∨ name = "md" then some (.markdown .plain)
  else if name = "bitbucket" ∨ name = "anchor-markdown" then some (.markdown .anchorTag)
  else if name = "html" then some .html
  else if name = "json" then some .json
  else none

def unknownMessage (name : Text) : Text :=
  "unknown format: " ++ name ++ ". Use markdown, bitbucket, html, or json"

def extension : Format → Text
  | .markdown _ => "md"
  | .html => "html"
  | .json => "json"

/-- The name of the document that holds all inputs, without its extension. -/
def stem : Format → Text
  | .markdown .anchorTag => "BitbucketDocumentation"
  | _ => "documentation"

def render : Format → List Class → Text
  | .markdown style, classes => Markdown.render style classes
  | .html, classes => Html.render classes
  | .json, classes => Json.render classes

end Format
end ApiDocs
