import Makespan.Loading
import Makespan.Simulation
import Makespan.Sweep.Table

/-! A sweep simulates every workflow under every policy. The runs are handed out file by file,
finish in whatever order they do, and are collected row by row. Each cell depends on its own
workflow and policy alone; one that fails leaves the others as they are. -/

namespace Makespan.Sweep

/-- Who creates the workers of each run. -/
abbrev Provisioners := Workflow → Policy → Provisioner

/-- Every worker of every run is created. -/
def allCreated : Provisioners := fun _ _ => .always

/-- The name of a file, or the whole path if it ends otherwise. -/
def shortLabel (path : String) : String := (Path.fileName? path).getD path

/-- Rows are labelled by file name, and by path where several files have one name. -/
def labels (paths : List String) : List String :=
  let short := paths.map shortLabel
  paths.map fun p => if 1 < short.count (shortLabel p) then p else shortLabel p

/-- A workflow to be simulated under a policy. -/
structure Run where
  workflow : Workflow
  policy : Policy
  deriving DecidableEq

/-- What a run comes to within so many events; `none` if they are not enough. -/
def Run.result? (events : Nat) (settings : Settings) (provisioners : Provisioners) (r : Run) :
    Option (Except Error Report) :=
  simulate? events r.workflow r.policy settings (provisioners r.workflow r.policy)

/-- The place of a run among all that were handed out. -/
abbrev Handle := Nat

/-- The cell for what is awaited by a handle. -/
def Cell.ofResult (host : Host) (handle : Handle) : Except Error Report → Cell
  | .ok report => .completed report.makespan report.executed
  | .error .provisioningCrashed => .failed (host.breakdown handle)
  | .error e => .failed e.message

/-- A row whose runs have been handed out but not collected. -/
inductive PendingRow where
  | loadFailed (reason : String)
  /-- One handle for each policy, in column order. -/
  | running (handles : List Handle)
  deriving DecidableEq

/-- Hands out the runs of a file behind those of the files before. -/
def spawn (host : Host) (settings : Settings) (runs : List Run) (path : String) :
    PendingRow × List Run :=
  match Workflow.load host path with
  | .ok w =>
    (.running (List.range' runs.length settings.policies.length),
      runs ++ settings.policies.map (Run.mk w))
  | .error e => (.loadFailed e.message, runs)

/-- Hands out the runs of all files. -/
def spawnAll (host : Host) (settings : Settings) (runs : List Run) :
    List String → List PendingRow × List Run
  | [] => ([], runs)
  | path :: rest =>
    let (row, runs) := spawn host settings runs path
    let (rows, runs) := spawnAll host settings runs rest
    (row :: rows, runs)

/-- What the finished runs came to, in the order in which they finished. -/
abbrev Finished := List (Handle × Except Error Report)

/-- The runs finish in the given order, each within so many events; `none` if they are not enough
for one of them. -/
def finish? (events : Nat) (settings : Settings) (provisioners : Provisioners) (runs : List Run)
    (order : List Handle) : Option Finished :=
  order.mapM fun handle => do
    let run ← runs[handle]?
    return (handle, ← run.result? events settings provisioners)

/-- Awaits the runs of a row one by one, each by its handle; `none` if one has not finished. If the
file could not be loaded then all cells have failed. -/
def PendingRow.collect? (host : Host) (policies : List Policy) (finished : Finished) :
    PendingRow → Option (List Cell)
  | loadFailed reason => some (policies.map fun _ => .failed reason)
  | running handles => handles.mapM fun handle =>
    (finished.lookup handle).map (.ofResult host handle)

/-- The handles of a sweep, in the order in which its runs are handed out. -/
def handles (host : Host) (settings : Settings) (paths : List String) : List Handle :=
  List.range (spawnAll host settings [] paths).2.length

/-- The table of a sweep whose runs finish in the given order, each within so many events; `none` if
they are not enough for one of them. -/
def runInOrder? (order : List Handle) (events : Nat) (host : Host) (settings : Settings)
    (provisioners : Provisioners) (paths : List String) : Option Table := do
  let (pending, runs) := spawnAll host settings [] paths
  let finished ← finish? events settings provisioners runs order
  let rows ← ((paths.zip (labels paths)).zip pending).mapM fun ((path, label), row) => do
    return ⟨label, path, ← row.collect? host settings.policies finished⟩
  return ⟨settings.policies, rows⟩

/-- The table of a sweep whose runs finish as they were handed out. -/
def run? (events : Nat) (host : Host) (settings : Settings) (provisioners : Provisioners)
    (paths : List String) : Option Table :=
  runInOrder? (handles host settings paths) events host settings provisioners paths

end Makespan.Sweep
