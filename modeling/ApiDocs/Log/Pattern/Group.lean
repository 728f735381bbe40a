import ApiDocs.Log.Pattern.Item
import ApiDocs.Text.Alphanumeric

namespace ApiDocs.Log.Pattern

inductive Opening
  | group (name : Option Text) (flags : Flags)
  | flags (flags : Flags)
deriving DecidableEq, Repr

def startsName (c : Char) : Bool := c = '_' || Text.isAlphabetic c

def continuesName (c : Char) : Bool :=
  c = '_' || c = '.' || c = '[' || c = ']' || Text.isAlphanumeric c

def isGroupName : Text → Bool
  | [] => false
  | c :: s => startsName c && s.all continuesName

def flagLetters : Text := "imsUuxR"

/-- Each flag is named once. Those behind a hyphen are taken away. -/
def areFlags (s : Text) : Bool :=
  s.all (fun c => c = '-' || flagLetters.contains c) && decide s.Nodup && s.getLast? ≠ some '-'

def stateOf (flag : Char) (s : Text) : Option Bool :=
  if flag ∈ s then some ('-' ∉ s.takeWhile (· ≠ flag)) else none

def Flags.change (f : Flags) (s : Text) : Flags :=
  ⟨(stateOf 'u' s).getD f.unicode, (stateOf 'x' s).getD f.spaced⟩

def endsFlags (c : Char) : Bool := c = ':' || c = ')'

def named? (f : Flags) (s : Text) : Option (Opening × Text) :=
  (Text.cutAt? ">" s).bind fun (name, rest) =>
    if isGroupName name then some (.group name f, rest) else none

def flagged? (f : Flags) (s : Text) : Option (Opening × Text) :=
  let flags := s.takeWhile (!endsFlags ·)
  if areFlags flags then
    match s.dropWhile (!endsFlags ·) with
    | [] => none
    | c :: rest =>
      if c = ':' then some (.group none (f.change flags), rest)
      else if flags = [] then none
      else some (.flags (f.change flags), rest)
  else none

/-- What a text behind `(` begins with, and the text after it. -/
def opening? (f : Flags) (s : Text) : Option (Opening × Text) :=
  let s := f.skip s
  match (["?P<", "?<"] : List Text).findSome? (Text.dropStart? · s) with
  | some rest => named? f rest
  | none =>
    match Text.dropStart? "?" s with
    | some rest => flagged? f rest
    | none => some (.group none f, s)

end ApiDocs.Log.Pattern
