import Makespan.Command.DryRun
import Makespan.Log.Loading
import Makespan.Log.Simulation

/-! What is logged during a dry run. -/

namespace Makespan.Command.DryRun

open Log

def fileLog (host : Host) (settings : Settings) (path : String) : Records :=
  match Workflow.load host path with
  | .error _ => []
  | .ok w =>
    Workflow.loadLog host path ++ w.graphLog settings.lengthScale ++
      match w.graph settings.lengthScale with
      | .ok g => g.preprocessLog .all
      | .error _ => []

def listingLog (host : Host) (settings : Settings) (files : List String) : Records :=
  files.flatMap (fileLog host settings) ++
    [⟨.debug, .program, "dry-run complete (no simulation)", [], none⟩]

end Makespan.Command.DryRun
