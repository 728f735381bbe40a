import ApiDocs.Text.Basic

namespace ApiDocs.Json

inductive Value
  | text (s : Text)
  | bool (b : Bool)
  | array (items : List Value)
  | object (fields : List (Text × Value))

def hexDigit (n : Nat) : Char := if n < 10 then Char.ofNat (0x30 + n) else Char.ofNat (0x57 + n)

def escapeChar (c : Char) : Text :=
  if c = '"' then "\\\""
  else if c = '\\' then "\\\\"
  else if c = '\n' then "\\n"
  else if c = '\r' then "\\r"
  else if c = '\t' then "\\t"
  else if c.toNat = 0x8 then "\\b"
  else if c.toNat = 0xc then "\\f"
  else if c.toNat < 0x20 then "\\u00" ++ [hexDigit (c.toNat / 16), hexDigit (c.toNat % 16)]
  else [c]

def quoted (s : Text) : Text := '"' :: s.flatMap escapeChar ++ ['"']

def newLine (depth : Nat) : Text := '\n' :: List.replicate (2 * depth) ' '

def comma {α : Type} : List α → Text
  | [] => []
  | _ => ","

mutual

def write (depth : Nat) : Value → Text
  | .text s => quoted s
  | .bool b => if b then "true" else "false"
  | .array [] => "[]"
  | .array (v :: vs) => "[" ++ writeItems (depth + 1) (v :: vs) ++ newLine depth ++ "]"
  | .object [] => "\x7b\x7d"
  | .object (f :: fs) => "\x7b" ++ writeFields (depth + 1) (f :: fs) ++ newLine depth ++ "\x7d"

def writeItems (depth : Nat) : List Value → Text
  | [] => []
  | v :: vs => newLine depth ++ write depth v ++ comma vs ++ writeItems depth vs

def writeFields (depth : Nat) : List (Text × Value) → Text
  | [] => []
  | (key, v) :: fs =>
    newLine depth ++ quoted key ++ ": " ++ write depth v ++ comma fs ++ writeFields depth fs

end

end ApiDocs.Json
