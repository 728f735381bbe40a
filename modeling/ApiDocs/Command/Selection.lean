import ApiDocs.Command.Failure
import ApiDocs.Files.Search
import ApiDocs.Log.Record

/-!
The input files of a run. A pattern is a file, a directory with documents, or a glob pattern. Every
directory of a disk can be listed, so a directory that cannot be read does not end a run here.
-/

namespace ApiDocs.Command

open Files Log

def documentExtension : Text := "xml"

def isDocument (path : Text) : Bool :=
  match Path.extension? path with
  | some extension => extension.map Char.toLower = documentExtension
  | none => false

def documentsIn (d : Disk) (path : Text) : List Text :=
  ((d.namesAt path).map (Path.join path)).filter fun p => d.isFile p && isDocument p

def filesOf (d : Disk) (pattern : Text) : Except Failure (List Text × List Record) :=
  if d.isFile pattern then .ok ([pattern], [])
  else if d.isDirectory pattern then .ok (documentsIn d pattern, [])
  else
    match Glob.read pattern with
    | .error fault => .error (.pattern pattern fault)
    | .ok p =>
      match matchesOf d p with
      | [] => .ok ([], [program .warn "no files matched" [("pattern", pattern)]])
      | paths => .ok (paths, [])

/-- The files of all patterns, up to the first pattern that cannot be read. -/
def filesOfAll (d : Disk) : List Text → List Text × List Record × Option Failure
  | [] => ([], [], none)
  | pattern :: rest =>
    match filesOf d pattern with
    | .error failure => ([], [], some failure)
    | .ok (paths, log) =>
      let (paths', log', failure) := filesOfAll d rest
      (paths ++ paths', log ++ log', failure)

end ApiDocs.Command
