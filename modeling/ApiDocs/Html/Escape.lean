import ApiDocs.Text.Basic

namespace ApiDocs.Html

def escapeChar (c : Char) : Text :=
  if c = '&' then "&amp;"
  else if c = '<' then "&lt;"
  else if c = '>' then "&gt;"
  else if c = '"' then "&quot;"
  else [c]

def escape (s : Text) : Text := s.flatMap escapeChar

def zeroWidthSpace : Text := "&#8203;"

def opensBracket (c : Char) : Bool := c = '(' || c = '\x7b'

def withBreaks (s : Text) : Text :=
  s.flatMap fun c => if opensBracket c then zeroWidthSpace ++ [c] else [c]

end ApiDocs.Html
