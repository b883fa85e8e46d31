import Makespan.Log.Loading
import Makespan.Log.Simulation
import Makespan.Sweep.Run

/-! What is logged about a sweep, path by path. The runs of a sweep are independent of each other,
so that the order between the records of two runs means nothing. -/

namespace Makespan.Sweep

open Log

/-- How the run of a handle came out. -/
def resultLog (host : Host) (label : String) (policy : Policy) (handle : Handle) :
    Except Error Report → Records
  | .ok report =>
    [⟨.info, .sweep, "run completed",
      [.quoted "workflow" label, .text "policy" policy.name, .number "makespan" report.makespan,
        .count "executed" report.executed], none⟩]
  | .error .provisioningCrashed =>
    [⟨.error, .sweep, "run aborted; recording sentinel",
      [.quoted "workflow" label, .text "policy" policy.name,
        .text "error" (host.breakdown handle)], none⟩]
  | .error e =>
    [⟨.warn, .sweep, "run failed; recording sentinel",
      [.quoted "workflow" label, .text "policy" policy.name, .text "error" e.message], none⟩]

def cellLog (events : Nat) (host : Host) (settings : Settings) (provisioners : Provisioners)
    (label : String) (runs : List Run) (handle : Handle) : Records :=
  runs[handle]?.elim [] fun run =>
    simulationLog events run.workflow run.policy settings (provisioners run.workflow run.policy) ++
      (run.result? events settings provisioners).elim []
        (resultLog host label run.policy handle)

def rowLog (events : Nat) (host : Host) (settings : Settings) (provisioners : Provisioners)
    (runs : List Run) (path label : String) : PendingRow → Records
  | .running handles =>
    Workflow.loadLog host path ++
      handles.flatMap (cellLog events host settings provisioners label runs)
  | .loadFailed reason =>
    [⟨.error, .sweep, "failed to load workflow",
      [.text "path" path, .text "error" reason], none⟩]

/-- The log of a sweep that gives a table. -/
def runLog (events : Nat) (host : Host) (settings : Settings) (provisioners : Provisioners)
    (paths : List String) : Records :=
  let (pending, runs) := spawnAll host settings [] paths
  let rows := ((paths.zip (labels paths)).zip pending).flatMap fun ((path, label), row) =>
    rowLog events host settings provisioners runs path label row
  let complete (t : Table) : Record :=
    ⟨.info, .sweep, "sweep complete",
      [.count "workflows" t.rows.length, .count "failed" t.failures], none⟩
  rows ++ ((run? events host settings provisioners paths).map complete).toList

end Makespan.Sweep
