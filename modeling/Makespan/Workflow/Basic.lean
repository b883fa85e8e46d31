import Makespan.Binary64.Text

/-! Workflow descriptions: a list of jobs, and for some of them the jobs that they wait for. -/

namespace Makespan

structure Job where
  id : String
  /-- The namespace and name of the program it runs. -/
  space : String := ""
  name : String := ""
  /-- Runtime in simulated seconds. -/
  runtime : Binary64
  deriving DecidableEq

/-- `child` waits for every one of `parents`. -/
structure Dependency where
  child : String
  parents : List String := []
  deriving DecidableEq

structure Workflow where
  name? : Option String := none
  jobs : List Job := []
  dependencies : List Dependency := []
  deriving DecidableEq

namespace Workflow

instance : Inhabited Workflow := ⟨{}⟩

/-- The name that logs and reports show. -/
def label (w : Workflow) : String := w.name?.getD "workflow"

def ids (w : Workflow) : List String := w.jobs.map (·.id)

/-- Every declared pair of a parent and its child, in order. -/
def pairs (w : Workflow) : List (String × String) :=
  w.dependencies.flatMap fun d => d.parents.map fun p => (p, d.child)

/-- Why a description is refused. -/
inductive Fault where
  | noJobs
  | duplicateJob (id : String)
  | invalidRuntime (id : String) (runtime : Binary64)
  | unknownJob (id : String)
  | unknownParent (child parent : String)
  | ownParent (id : String)
  | cycle (id : String)
  deriving DecidableEq

namespace Fault

def reason : Fault → String
  | noJobs => "workflow must contain at least one [[job]] entry"
  | duplicateJob id => "job id '" ++ id ++ "' is defined more than once"
  | invalidRuntime id runtime =>
    "job '" ++ id ++ "' has invalid runtime " ++ runtime.plain ++ " (must be finite and >= 0)"
  | unknownJob id => "dependency references unknown job '" ++ id ++ "'"
  | unknownParent child parent => "job '" ++ child ++ "' has unknown parent '" ++ parent ++ "'"
  | ownParent id => "job '" ++ id ++ "' cannot be its own parent"
  | cycle id => "cycle detected in workflow involving job '" ++ id ++ "'"

def isCycle : Fault → Bool
  | cycle _ => true
  | _ => false

def message (f : Fault) : String :=
  (if f.isCycle then "Cycle detected in workflow: " else "Configuration error: ") ++ f.reason

end Fault

end Workflow

end Makespan
