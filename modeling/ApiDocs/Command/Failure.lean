import ApiDocs.Files.Disk
import ApiDocs.Files.Glob
import ApiDocs.Format
import ApiDocs.Xml.Fault

/-!
What ends a run early, and how it is told: a message, and below it the causes, indented. That a
directory cannot be read is not among it: every directory of a disk can be listed.
-/

namespace ApiDocs.Command

inductive Failure
  | noOutput
  | unknownFormat (name : Text)
  | undecodableInput
  | malformedInput (error : Xml.Error)
  | outputDirectory (path : Text) (fault : Files.Fault)
  | pattern (pattern : Text) (fault : Glob.Fault)
  | document (path : Text) (fault : Files.Fault)
  | stylesheet (path : Text) (fault : Files.Fault)
deriving DecidableEq, Repr

namespace Failure

def message : Failure → Text
  | noOutput => "--output is required when files are given"
  | unknownFormat name => Format.unknownMessage name
  | undecodableInput => "failed to read stdin"
  | malformedInput _ => "failed to parse XML from stdin"
  | outputDirectory path _ => "failed to create output directory: " ++ path
  | pattern p _ => "invalid glob pattern: " ++ p
  | document path _ => "failed to write " ++ path
  | stylesheet path _ => "failed to write stylesheet: " ++ path

def causes : Failure → List Text
  | noOutput => []
  | unknownFormat _ => []
  | undecodableInput => [Files.invalidMessage]
  | malformedInput error => error.chain
  | outputDirectory _ fault => [fault.message]
  | pattern _ fault => [fault.message]
  | document _ fault => [fault.message]
  | stylesheet _ fault => [fault.message]

/-- The first line of a text stands behind `first`, and the others behind `other`. -/
def indented (first other s : Text) : Text :=
  first ++ Text.joinWith ('\n' :: other) (Text.splitAt '\n' s) ++ "\n"

def padLeft (width : Nat) (s : Text) : Text := List.replicate (width - s.length) ' ' ++ s

def numbered (n : Nat) : List Text → Text
  | [] => []
  | s :: rest =>
    indented (padLeft 5 (Text.ofNat n) ++ ": ") (List.replicate 7 ' ') s ++ numbered (n + 1) rest

def causesText : List Text → Text
  | [] => []
  | [s] => "\nCaused by:\n" ++ indented (List.replicate 4 ' ') (List.replicate 4 ' ') s
  | causes => "\nCaused by:\n" ++ numbered 0 causes

def text (f : Failure) : Text := "Error: " ++ f.message ++ "\n" ++ causesText f.causes

end Failure
end ApiDocs.Command
