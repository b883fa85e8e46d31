import Makespan.Files.Path

/-! Directory trees as values, and how paths lead through them. -/

namespace Makespan

/-- Files and directories by their names. A name that is no text, which some systems allow, is left
out. -/
inductive FileTree where
  | file (bytes : ByteArray)
  | dir (entries : List (String × FileTree))

namespace FileTree

def entry? (name : String) : FileTree → Option FileTree
  | dir entries => (entries.find? (·.1 = name)).map (·.2)
  | file _ => none

def isDir : FileTree → Bool
  | dir _ => true
  | file _ => false

mutual

/-- A tree with a file or directory added at the end of a list of names, and with the directories
on the way; what stood there is replaced. -/
def add (t leaf : FileTree) : List String → FileTree
  | [] => leaf
  | name :: rest =>
    match t with
    | dir entries => dir (addEntry leaf name rest entries)
    | file _ => dir [(name, add (dir []) leaf rest)]
termination_by names => (names.length, 0)

def addEntry (leaf : FileTree) (name : String) (rest : List String) :
    List (String × FileTree) → List (String × FileTree)
  | [] => [(name, add (dir []) leaf rest)]
  | (n, t) :: entries =>
    if n = name then (n, t.add leaf rest) :: entries
    else (n, t) :: addEntry leaf name rest entries
termination_by entries => (rest.length, entries.length + 1)

end

end FileTree

/-- A tree with a working directory in it. -/
structure Place where
  root : FileTree
  working : List String

namespace Place

/-- Follows the segments of a path. The nearest directory stands first in `way`. Whatever a segment
follows has to be a directory, also where the segment is empty. -/
def follow : List String → List FileTree → Option FileTree
  | _, [] => none
  | [], t :: _ => some t
  | s :: rest, t :: way =>
    if !t.isDir then none
    else if s = "" || s = "." then follow rest (t :: way)
    else if s = ".." then follow rest (if way = [] then [t] else way)
    else
      match t.entry? s with
      | some inner => follow rest (inner :: t :: way)
      | none => none

/-- What a path leads to. -/
def find? (p : Place) (path : String) : Option FileTree :=
  if path = "" then none
  else if Path.isAbsolute path then follow (Path.segments path) [p.root]
  else follow (p.working ++ Path.segments path) [p.root]

/-- The names that lead from the root to where a path leads. -/
def names (p : Place) (path : String) : List String :=
  (Path.segments path).foldl
    (fun way s =>
      if s = "" || s = "." then way else if s = ".." then way.dropLast else way ++ [s])
    (if Path.isAbsolute path then [] else p.working)

/-- Puts a file or directory where a path leads. -/
def add (p : Place) (path : String) (leaf : FileTree) : Place :=
  { p with root := p.root.add leaf (p.names path) }

/-- The text of a file; `none` for a directory, for bytes that are no text, and where nothing is. -/
def readText? (p : Place) (path : String) : Option String :=
  match p.find? path with
  | some (.file bytes) => String.fromUTF8? bytes
  | _ => none

def isFile (p : Place) (path : String) : Bool :=
  (p.find? path).any fun t => !t.isDir

end Place

end Makespan
