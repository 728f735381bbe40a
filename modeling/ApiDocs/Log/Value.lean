import ApiDocs.Log.Pattern.Expression

namespace ApiDocs.Log.Value

def isExponent : Text → Bool
  | [] => true
  | c :: s =>
    let digits := if s.head? = some '+' ∨ s.head? = some '-' then s.tail else s
    c.toLower = 'e' && digits ≠ [] && digits.all Char.isDigit

def isNumber (s : Text) : Bool :=
  let whole := s.takeWhile Char.isDigit
  let rest := s.dropWhile Char.isDigit
  let part := if rest.head? = some '.' then rest.tail else []
  let fraction := part.takeWhile Char.isDigit
  let exponent := if rest.head? = some '.' then part.dropWhile Char.isDigit else rest
  (whole ++ fraction ≠ [] && isExponent exponent)
    || (["inf", "infinity", "nan"] : List Text).contains (s.map Char.toLower)

/-- A number with a plus sign is the only one that is no expression. -/
def isValid (s : Text) : Bool :=
  Pattern.isExpression s || (s.head? = some '+' && isNumber s.tail)

end ApiDocs.Log.Value
