import Makespan.Loading
import Makespan.Log.Record

/-! What is logged while workflows and settings are loaded. -/

namespace Makespan

open Log

def Workflow.loadLog (host : Host) (path : String) : Records :=
  match Workflow.load host path with
  | .ok w =>
    [⟨.debug, .loading, "loaded workflow description",
      [.text "path" path, .count "jobs" w.jobs.length,
        .count "dependencies" w.dependencies.length], none⟩]
  | .error _ => []

def Settings.resolveLog (host : Host) (path? : Option String) : Records :=
  if path?.isNone && !host.place.isFile Settings.defaultPath then
    [⟨.debug, .loading, "no simulation config found; using built-in defaults", [], none⟩]
  else []

end Makespan
