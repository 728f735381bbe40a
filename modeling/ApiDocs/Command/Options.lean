import ApiDocs.Text.Basic

namespace ApiDocs.Command

structure Options where
  inputs : List Text
  output : Option Text
  format : Text
  single : Bool
  noStylesheet : Bool
deriving DecidableEq, Repr

inductive Request
  | convert (options : Options)
  | help
  | version
deriving DecidableEq, Repr

structure Reading where
  inputs : List Text
  output : Option Text
  format : Option Text
  single : Bool
  noStylesheet : Bool
deriving DecidableEq, Repr

def defaultFormat : Text := "markdown"

namespace Reading

def start : Reading := ⟨[], none, none, false, false⟩

def addInput (r : Reading) (s : Text) : Reading := { r with inputs := r.inputs ++ [s] }

def addInputs (r : Reading) (l : List Text) : Reading := { r with inputs := r.inputs ++ l }

def finish (r : Reading) : Request :=
  .convert ⟨r.inputs, r.output, r.format.getD defaultFormat, r.single, r.noStylesheet⟩

end Reading

inductive Setting
  | output
  | format
deriving DecidableEq, Repr

inductive Flag
  | single
  | noStylesheet
deriving DecidableEq, Repr

/-- An option is set once; the output directory has a name. -/
def Reading.set (r : Reading) (setting : Setting) (value : Text) : Option Reading :=
  match setting with
  | .output =>
    if r.output.isSome ∨ value = [] then none else some { r with output := some value }
  | .format => if r.format.isSome then none else some { r with format := some value }

def Reading.raise (r : Reading) (flag : Flag) : Option Reading :=
  match flag with
  | .single => if r.single then none else some { r with single := true }
  | .noStylesheet => if r.noStylesheet then none else some { r with noStylesheet := true }

inductive Argument
  | input (s : Text)
  | endOfOptions
  | setting (setting : Setting) (value : Option Text)
  | flag (flag : Flag)
  | help
  | version
  | unknown
deriving DecidableEq, Repr

def Argument.ofLong (name : Text) (value : Option Text) : Argument :=
  if name = "output" then .setting .output value
  else if name = "format" then .setting .format value
  else if value.isSome then .unknown
  else if name = "single" then .flag .single
  else if name = "no-stylesheet" then .flag .noStylesheet
  else if name = "help" then .help
  else if name = "version" then .version
  else .unknown

/-- The value in the same argument as a letter; an equals sign in front does not belong to it. -/
def attached : Text → Option Text
  | [] => none
  | '=' :: s => some s
  | s => some s

def Argument.ofShort (letter : Char) (s : Text) : Argument :=
  if letter = 'o' then .setting .output (attached s)
  else if letter = 'f' then .setting .format (attached s)
  else if letter = 'h' then .help
  else if letter = 'V' then .version
  else .unknown

def Argument.read : Text → Argument
  | ['-', '-'] => .endOfOptions
  | '-' :: '-' :: s =>
    match Text.cutAt? "=" s with
    | some (name, value) => .ofLong name (some value)
    | none => .ofLong s none
  | '-' :: letter :: s => .ofShort letter s
  | s => .input s

def isValue : Text → Bool
  | '-' :: _ :: _ => false
  | _ => true

/-- Arguments count from the left; a request for help ends the reading. No answer is a usage
error. -/
def Reading.run (r : Reading) : List Text → Option Request
  | [] => some r.finish
  | s :: rest =>
    match Argument.read s with
    | .input s => (r.addInput s).run rest
    | .endOfOptions => some (r.addInputs rest).finish
    | .help => some .help
    | .version => some .version
    | .unknown => none
    | .flag flag => (r.raise flag).bind (·.run rest)
    | .setting setting (some value) => (r.set setting value).bind (·.run rest)
    | .setting setting none =>
      match rest with
      | [] => none
      | value :: rest => if isValue value then (r.set setting value).bind (·.run rest) else none

def request? (arguments : List Text) : Option Request := Reading.start.run arguments

end ApiDocs.Command
