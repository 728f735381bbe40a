import ApiDocs.Extract.Notes

namespace ApiDocs.Log

inductive Level
  | error
  | warn
  | info
  | debug
  | trace
deriving DecidableEq, Repr

namespace Level

/-- A level includes all levels of a smaller rank. -/
def rank : Level → Nat
  | error => 1
  | warn => 2
  | info => 3
  | debug => 4
  | trace => 5

def name : Level → Text
  | error => "ERROR"
  | warn => "WARN"
  | info => "INFO"
  | debug => "DEBUG"
  | trace => "TRACE"

end Level

structure Record where
  level : Level
  target : Text
  message : Text
  fields : List (Text × Text)
deriving DecidableEq, Repr

def Record.text (r : Record) : Text :=
  r.level.name ++ " " ++ r.target ++ ": " ++ r.message
    ++ r.fields.flatMap fun f => ' ' :: f.1 ++ '=' :: f.2

def Record.fieldNames (r : Record) : List Text := "message" :: r.fields.map (·.1)

def programTarget : Text := "xmldoc"

def extractTarget : Text := "xmldoc::extract"

def program (level : Level) (message : Text) (fields : List (Text × Text)) : Record :=
  ⟨level, programTarget, message, fields⟩

open Extract in
def ofNote : Note → Record
  | .namelessMember =>
    ⟨.debug, extractTarget, "skipping <member> without a name attribute", []⟩
  | .emptyTypeName => ⟨.debug, extractTarget, "skipping type entry with an empty name", []⟩
  | .extracted typeName members =>
    ⟨.trace, extractTarget, "extracted type",
      [("class", typeName), ("members", Text.ofNat members)]⟩

end ApiDocs.Log
