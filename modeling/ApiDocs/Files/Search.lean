import ApiDocs.Files.Disk
import ApiDocs.Files.Glob

namespace ApiDocs.Files

open Glob

def isCurrent (path : Text) : Bool := Path.components path = [.current]

def extend (path name : Text) : Text := if isCurrent path then name else Path.join path name

def dots : List Text := [".", ".."]

/-- A pattern finds the entries `.` and `..` only if it begins with a dot. -/
def dotNames : Test → List Text
  | .tokens (.char '.' :: ts) => dots.filter (accepts (.char '.' :: ts))
  | _ => []

def candidates (d : Disk) (path : Text) (l : Level) : List Text :=
  if l.deep then
    (d.belowAt path).filterMap fun names =>
      match names.getLast? with
      | some name =>
        if l.test.accepts name then some (extend path (Text.joinWith "/" names)) else none
      | none => none
  else
    match l.test with
    | .literal name => [extend path name].filter d.has
    | .tokens _ =>
      (if d.isDirectory path then (dotNames l.test).map (Path.join path) else [])
        ++ ((d.namesAt path).filter (l.test.accepts ·)).map (extend path)

def expand (d : Disk) : List Level → Text → List Text
  | [], path => [path]
  | l :: ls, path => (candidates d path l).flatMap (expand d ls)

def matchesOf (d : Disk) (p : Pattern) : List Text :=
  if p.directories then []
  else (expand d p.levels (if p.absolute then "/" else ".")).filter d.isFile

end ApiDocs.Files
