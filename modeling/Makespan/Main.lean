import Makespan.Command.Program
import Makespan.Host.OfPlace

/-! The command line program. It takes a picture of the files that its arguments name, and all else
is decided by `Command.program?`. -/

namespace Makespan.Main

/-- What stands at an entry of a directory. Only the bytes of wanted files are read. -/
partial def read (wanted : String → Bool) (entry : IO.FS.DirEntry) : IO FileTree := do
  if ← entry.path.isDir then
    let entries ← entry.path.readDir
    return .dir (← entries.toList.mapM fun e => do return (e.fileName, ← read wanted e))
  else if wanted entry.fileName then return .file (← IO.FS.readBinFile entry.path)
  else return .file .empty

/-- Adds what a path leads to, and the directories on the way. What cannot be read is left out. -/
def add (place : Place) (path : String) : IO Place := do
  let here ← IO.currentDir
  let segments := Path.segments path
  let mut place := place
  for n in List.range segments.length do
    let way := "/".intercalate (segments.take n) ++ "/"
    if way ≠ "/" && (place.find? way).isNone then
      if ← (here / way).isDir then place := place.add way (.dir [])
  if ← (here / path).isDir then
    let tree ← try read Discovery.isWorkflowName ⟨here, path⟩ catch _ => pure (.dir [])
    return place.add path tree
  try
    return place.add path (← read (fun _ => true) ⟨here, path⟩)
  catch _ => return place

/-- The paths that a command may read. -/
def needed (a : Command.Arguments) : List String :=
  a.config?.getD Settings.defaultPath :: a.paths

def place (texts : List String) : IO Place := do
  let working := (Path.segments (← IO.currentDir).toString).filter (· ≠ "")
  let empty : Place := ⟨.dir [], working⟩
  match Command.Arguments.read texts with
  | .error _ => return empty
  | .ok a => (needed a).foldlM add (empty.add "." (.dir []))

/-- More events than any run takes that comes to an end within a lifetime. -/
def eventLimit : Nat := 0x1000000000000000

end Makespan.Main

def main (arguments : List String) : IO UInt32 := do
  let place ← Makespan.Main.place arguments
  let directives? ← IO.getEnv Makespan.Command.filterVariable
  match Makespan.Command.program? Makespan.Main.eventLimit place.host directives? arguments with
  | none =>
    IO.eprintln "dagsim error: a run takes too many events"
    return 1
  | some result =>
    IO.print result.output
    for line in result.log do IO.eprintln line
    for message in result.error? do IO.eprintln message
    return UInt32.ofNat result.code
