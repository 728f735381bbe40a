import ApiDocs.Text.Alphanumeric
import ApiDocs.Text.Lowercase
import ApiDocs.Text.Words

namespace ApiDocs.Anchor

def isSlugChar (c : Char) : Bool := Text.isAlphanumeric c || c = '_'

/-- Lower case, letters, digits and underscores only. -/
def ofHeading (s : Text) : Text := Text.trim ((Text.lower s).filter isSlugChar)

def ofId (s : Text) : Text := s.map fun c => if c = '.' then '-' else c

def listItem (s : Text) : Text := "- [" ++ s ++ "](#" ++ ofHeading s ++ ")"

end ApiDocs.Anchor
