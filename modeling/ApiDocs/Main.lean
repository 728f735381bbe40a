import ApiDocs.Command.Reach
import ApiDocs.Command.Run

namespace ApiDocs.Program

open Files Command

def absolutePath (place : Place) : String :=
  String.ofList ('/' :: Text.joinWith ['/'] place)

def currentPlace : IO Place := do
  let here ← IO.currentDir
  return (Text.splitAt '/' here.toString.toList).filter (· ≠ [])

/-- Adds what stands at a place, and what is below it down to a depth. -/
def load (d : Disk) (place : Place) : (depth : Nat) → IO Disk
  | 0 => do
    let path := (← IO.currentDir) / absolutePath place
    if ← path.isDir then return d.put place .directory
    if ← path.pathExists then
      let content ← try IO.FS.readBinFile path catch _ => pure ByteArray.empty
      return d.put place (.file content)
    return d
  | depth + 1 => do
    let path := (← IO.currentDir) / absolutePath place
    let mut disk ← load d place 0
    if ← path.isDir then
      for entry in ← path.readDir do
        disk ← load disk (place ++ [entry.fileName.toList]) depth
    return disk

def loadReach (home : Place) (d : Disk) (r : Reach) : IO Disk := do
  let mut disk := d
  for place in placesAlong home r.path do
    disk ← load disk place 0
  load disk (placeOf home r.path) r.depth

def loadAll (home : Place) (o : Options) : IO Disk := do
  let mut disk : Disk := ⟨home, []⟩
  for n in List.range home.length do
    disk := disk.put (home.take (n + 1)) .directory
  for r in reach o do
    disk ← loadReach home disk r
  return disk

partial def readAll (input : IO.FS.Stream) (content : ByteArray) : IO ByteArray := do
  let part ← input.read 65536
  if part.isEmpty then return content
  readAll input (content ++ part)

def store : Place × Item → IO Unit
  | (place, .directory) => IO.FS.createDirAll (absolutePath place)
  | (place, .file content) => IO.FS.writeBinFile (absolutePath place) content

def surroundings (arguments : List Text) : IO Surroundings := do
  let home ← currentPlace
  let setting ← IO.getEnv "RUST_LOG"
  let empty : Surroundings :=
    ⟨arguments, setting.map String.toList, ByteArray.empty, ⟨home, []⟩⟩
  match request? arguments with
  | some (.convert o) =>
    if o.inputs = [] then
      return { empty with input := ← readAll (← IO.getStdin) ByteArray.empty }
    else return { empty with disk := ← loadAll home o }
  | _ => return empty

end ApiDocs.Program

open ApiDocs Program in
def main (arguments : List String) : IO UInt32 := do
  let s ← surroundings (arguments.map String.toList)
  let o := Command.run s
  for change in Command.changes s.disk o.disk do
    store change
  IO.eprint (String.ofList o.errors)
  IO.print (String.ofList o.output)
  return o.exitCode.toUInt32
