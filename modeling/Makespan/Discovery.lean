import Makespan.Files.Tree

/-! Which workflow files a list of paths stands for. A file stands for itself and a directory for
all files in it, at any depth, that have the extension of a workflow. -/

namespace Makespan.Discovery

/-- The path does not lead anywhere. -/
structure MissingPath where
  path : String
  deriving DecidableEq

def MissingPath.message (m : MissingPath) : String :=
  "Configuration error: workflow path '" ++ m.path ++ "' does not exist"

def isWorkflowName (path : String) : Bool := Path.extension? path = some "toml"

/-- The workflow files at any depth below a directory, given its path and its entries. -/
def below (path : String) : List (String × FileTree) → List String
  | [] => []
  | (name, .dir entries) :: rest => below (Path.join path name) entries ++ below path rest
  | (name, .file _) :: rest =>
    let file := Path.join path name
    (if isWorkflowName file then [file] else []) ++ below path rest

def expand (place : Place) (path : String) : Except MissingPath (List String) :=
  match place.find? path with
  | some (.dir entries) => .ok (below path entries)
  | some (.file _) => .ok [path]
  | none => .error ⟨path⟩

/-- Of neighbours that are the same path the first one stays. -/
def distinct : List String → List String
  | p :: q :: rest => if Path.same p q then distinct (p :: rest) else p :: distinct (q :: rest)
  | paths => paths

/-- All files in order of their paths, each once. -/
def find (place : Place) (paths : List String) : Except MissingPath (List String) := do
  let found ← paths.mapM (expand place)
  return distinct (found.flatten.mergeSort Path.le)

end Makespan.Discovery
