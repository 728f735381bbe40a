import ApiDocs.Text.Basic

namespace ApiDocs.Identifier

def isKindMark (c : Char) : Bool := c.isAlpha || c = '!'

def withoutKind : Text → Text
  | k :: ':' :: name => if isKindMark k then name else k :: ':' :: name
  | name => name

/-- The part before the last dot and the part after it. A name without dots has an empty first
part. -/
def split (fullName : Text) : Text × Text := (Text.cutAtLast? '.' fullName).getD ([], fullName)

def join (qualifier name : Text) : Text :=
  if qualifier = [] then name else qualifier ++ "." ++ name

end ApiDocs.Identifier
