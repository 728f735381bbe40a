import ApiDocs.Text.Numeral

namespace ApiDocs.Xml

inductive MarkupFault
  | unknown
  | comment
  | cdata
  | doctype
  | instruction
  | declaration
  | tag
  | attributeValue (quote : Char)
deriving DecidableEq, Repr

inductive FormFault
  | openReference
  | namelessDoctype
  | mismatchedEnd (expected found : Text)
deriving DecidableEq, Repr

/-- Positions are byte offsets into the content of the tag. -/
inductive AttributeFault
  | expectedEq (position : Nat)
  | expectedValue (position : Nat)
  | unquotedValue (position : Nat)
  | expectedQuote (position : Nat) (quote : Char)
  | duplicated (position earlier : Nat)
deriving DecidableEq, Repr

inductive NumberFault
  | sign
  | numeral (fault : Numeral.Fault)
  | zero
  | notScalar (n : Nat)
deriving DecidableEq, Repr

/-- Offsets are in bytes, within the attribute value. -/
inductive ReferenceFault
  | unterminated (start stop : Nat)
  | unrecognized (start stop : Nat) (name : Text)
  | number (fault : NumberFault)
deriving DecidableEq, Repr

inductive Fault
  | markup (fault : MarkupFault)
  | form (fault : FormFault)
  | attribute (fault : AttributeFault)
  | reference (fault : ReferenceFault)
deriving DecidableEq, Repr

inductive Error
  | unreadable (fault : Fault)
  | unclosedElement (name : Text)
  | unexpectedEnd (name : Text)
  | multipleRoots (first second : Text)
  | emptyDocument
deriving DecidableEq, Repr

instance decidableEqExcept {ε α : Type} [DecidableEq ε] [DecidableEq α] :
    DecidableEq (Except ε α)
  | .ok a, .ok b => decidable_of_iff (a = b) ⟨congrArg Except.ok, Except.ok.inj⟩
  | .error a, .error b => decidable_of_iff (a = b) ⟨congrArg Except.error, Except.error.inj⟩
  | .ok _, .error _ => .isFalse nofun
  | .error _, .ok _ => .isFalse nofun

def notClosed (what mark : Text) : Text :=
  what ++ " not closed: `" ++ mark ++ "` not found before end of input"

def MarkupFault.message : MarkupFault → Text
  | .unknown => "unknown or missed symbol in markup"
  | .comment => notClosed "comment" "-->"
  | .cdata => notClosed "CDATA" "]]>"
  | .doctype => notClosed "DOCTYPE" ">"
  | .instruction => notClosed "processing instruction" "?>"
  | .declaration => notClosed "XML declaration" "?>"
  | .tag => notClosed "tag" ">"
  | .attributeValue quote => notClosed "attribute value" [quote]

def FormFault.message : FormFault → Text
  | .openReference => notClosed "entity or character reference" ";"
  | .namelessDoctype => "`<!DOCTYPE>` declaration does not contain a name of a document type"
  | .mismatchedEnd expected found =>
    "expected `</" ++ expected ++ ">`, but `</" ++ found ++ ">` was found"

def AttributeFault.message : AttributeFault → Text
  | .expectedEq p =>
    "position " ++ Text.ofNat p ++ ": attribute key must be directly followed by `=` or space"
  | .expectedValue p =>
    "position " ++ Text.ofNat p ++ ": `=` must be followed by an attribute value"
  | .unquotedValue p =>
    "position " ++ Text.ofNat p ++ ": attribute value must be enclosed in `\"` or `'`"
  | .expectedQuote p quote =>
    "position " ++ Text.ofNat p ++ ": missing closing quote `" ++ [quote] ++ "` in attribute value"
  | .duplicated p earlier =>
    "position " ++ Text.ofNat p ++ ": duplicated attribute, previous declaration at position "
      ++ Text.ofNat earlier

def NumberFault.message : NumberFault → Text
  | .sign => "unexpected number sign"
  | .numeral fault => fault.message
  | .zero => "0x0 character is not permitted in XML"
  | .notScalar n => "`" ++ Text.ofNat n ++ "` is not a valid codepoint"

def NumberFault.chain (fault : NumberFault) : List Text :=
  match fault with
  | .numeral inner => [fault.message, inner.message]
  | _ => [fault.message]

def ReferenceFault.message : ReferenceFault → Text
  | .unterminated start stop =>
    "Error while escaping character at range " ++ Text.ofNat start ++ ".." ++ Text.ofNat stop
      ++ ": Cannot find ';' after '&'"
  | .unrecognized start stop name =>
    "at " ++ Text.ofNat start ++ ".." ++ Text.ofNat stop ++ ": unrecognized entity `" ++ name
      ++ "`"
  | .number fault => "invalid character reference: " ++ fault.message

def ReferenceFault.chain (fault : ReferenceFault) : List Text :=
  match fault with
  | .number inner => [fault.message, fault.message] ++ inner.chain
  | _ => [fault.message, fault.message]

def Fault.chain : Fault → List Text
  | .markup fault => ["syntax error: " ++ fault.message, fault.message]
  | .form fault => ["ill-formed document: " ++ fault.message, fault.message]
  | .attribute fault => [fault.message]
  | .reference fault => fault.chain

def Fault.message : Fault → Text
  | .markup fault => "XML parse error: syntax error: " ++ fault.message
  | .form fault => "XML parse error: ill-formed document: " ++ fault.message
  | .attribute fault => "XML attribute error: " ++ fault.message
  | .reference fault => "XML parse error: " ++ fault.message

def Error.message : Error → Text
  | .unreadable fault => fault.message
  | .unclosedElement name => "unclosed element <" ++ name ++ ">"
  | .unexpectedEnd name => "unexpected closing tag </" ++ name ++ ">"
  | .multipleRoots first second =>
    "multiple root elements: <" ++ first ++ "> and <" ++ second ++ ">"
  | .emptyDocument => "document has no root element"

def Error.chain (error : Error) : List Text :=
  match error with
  | .unreadable fault => error.message :: fault.chain
  | _ => [error.message]

end ApiDocs.Xml
