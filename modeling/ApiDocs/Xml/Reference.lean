import ApiDocs.Xml.Fault

namespace ApiDocs.Xml.Reference

def predefined? (name : Text) : Option Char :=
  if name = "lt" then some '<'
  else if name = "gt" then some '>'
  else if name = "amp" then some '&'
  else if name = "apos" then some '\''
  else if name = "quot" then some '"'
  else none

/-- One plus sign may stand before the digits. -/
def unsigned (base : Nat) : Text → Except Numeral.Fault Nat
  | '+' :: s => Numeral.read base s
  | s => Numeral.read base s

def contentNumber : Text → Except Numeral.Fault Nat
  | 'x' :: s => unsigned 16 s
  | 'X' :: s => unsigned 16 s
  | s => unsigned 10 s

def contentChar? (name : Text) : Option Char :=
  match predefined? name with
  | some c => some c
  | none =>
    match name with
    | '#' :: s => (contentNumber s).toOption.bind CodePoint.toChar?
    | _ => none

def inContent (name : Text) : Text :=
  match contentChar? name with
  | some c => [c]
  | none => "&" ++ name ++ ";"

def valueNumeral (base : Nat) (s : Text) : Except NumberFault Nat :=
  match s with
  | '+' :: _ => .error .sign
  | '-' :: _ => .error .sign
  | _ =>
    match Numeral.read base s with
    | .ok n => .ok n
    | .error fault => .error (.numeral fault)

def valueNumber : Text → Except NumberFault Nat
  | 'x' :: s => valueNumeral 16 s
  | s => valueNumeral 10 s

def valueScalar (s : Text) : Except NumberFault Char :=
  match valueNumber s with
  | .error fault => .error fault
  | .ok n =>
    if n = 0 then .error .zero
    else
      match CodePoint.toChar? n with
      | some c => .ok c
      | none => .error (.notScalar n)

def inValue (start : Nat) (name : Text) : Except ReferenceFault Char :=
  match name with
  | '#' :: s =>
    match valueScalar s with
    | .ok c => .ok c
    | .error fault => .error (.number fault)
  | _ =>
    match predefined? name with
    | some c => .ok c
    | none => .error (.unrecognized start (start + Text.byteSize name) name)

/-- Decodes the references of an attribute value of `size` bytes, of which `s` is the end. -/
def decodeValue (size : Nat) (s : Text) : Except ReferenceFault Text :=
  match s with
  | [] => .ok []
  | c :: s =>
    if c = '&' then
      match _hr : s.dropWhile (fun d => d ≠ ';' && d ≠ '&') with
      | ';' :: rest =>
        match inValue (size - Text.byteSize s) (s.takeWhile fun d => d ≠ ';' && d ≠ '&') with
        | .error fault => .error fault
        | .ok d => (decodeValue size rest).map (d :: ·)
      | _ => .error (.unterminated (size - Text.byteSize (c :: s)) size)
    else (decodeValue size s).map (c :: ·)
termination_by s.length
decreasing_by
  · have := Text.length_dropWhile_le (fun d => d ≠ ';' && d ≠ '&') s
    rw [_hr] at this
    simp only [List.length_cons] at this ⊢
    omega
  · simp

def value (s : Text) : Except ReferenceFault Text := decodeValue (Text.byteSize s) s

end ApiDocs.Xml.Reference
