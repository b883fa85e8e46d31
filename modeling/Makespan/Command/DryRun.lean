import Makespan.Graph.Preprocess
import Makespan.Loading
import Makespan.Simulation
import Makespan.Text.Column

/-! A dry run lists what preprocessing derives for the tasks of each workflow and simulates nothing.
A workflow that has no graph is listed with the reason. -/

namespace Makespan.Command.DryRun

/-- The preprocessed graph of a workflow file, or why there is none. -/
def graph (host : Host) (settings : Settings) (path : String) : Except String Graph := do
  let w ← (Workflow.load host path).mapError LoadError.message
  let g ← (w.graph settings.lengthScale).mapError Error.message
  (g.preprocess .all).mapError Error.message

def tierLine (t : Tier) : String :=
  "  worker_tier: " ++ toString t.count ++ " x " ++ t.speed.plain ++ " mips\n"

def settingsLines (s : Settings) : String :=
  "dagsim dry-run\n" ++
    "  simulation.inter_cycle_delay = " ++ s.cycleDelay.plain ++ "\n" ++
    "  simulation.length_scale = " ++ s.lengthScale.plain ++ "\n" ++
    String.join (s.tiers.map tierLine) ++ "\n"

def taskLine (n : Node) : String :=
  "  id: " ++ Text.column 10 n.task.id ++
    " runtime: " ++ Text.column 10 n.task.runtime.plain ++
    " length: " ++ Text.column 10 (toString n.task.length) ++
    " level: " ++ Text.column 5 (n.level.elim "-" toString) ++
    " stb: " ++ Text.column 5 (toString n.descendants.size) ++ "\n"

def graphLines (path : String) : Except String Graph → String
  | .error reason => path ++ ": error: " ++ reason ++ "\n"
  | .ok g =>
    path ++ " (" ++ toString g.size ++ " tasks, " ++ toString g.roots.length ++ " roots, " ++
      toString g.tails.length ++ " tails):\n" ++ String.join (g.nodes.toList.map taskLine)

/-- The listing of some workflow files. -/
def listing (host : Host) (settings : Settings) (files : List String) : String :=
  settingsLines settings ++
    String.join (files.map fun path => graphLines path (graph host settings path))

end Makespan.Command.DryRun
