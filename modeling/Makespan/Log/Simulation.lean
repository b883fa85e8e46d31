import Makespan.Log.Broker
import Makespan.Simulation

/-! What is logged while a workflow is simulated. -/

namespace Makespan

open Log

namespace Workflow

def jobsLog (g : Graph) (scale : Binary64) : List Job → Records
  | [] => []
  | j :: rest =>
    let task := Task.new j.id j.space j.name j.runtime scale
    g.addTaskLog task ++ jobsLog (g.addTask task).1 scale rest

def dependenciesLog (g : Graph) : List Dependency → Records
  | [] => []
  | d :: rest =>
    g.addDependencyLog d.child d.parents ++
      match g.addDependency d.child d.parents with
      | .ok g => dependenciesLog g rest
      | .error _ => []

/-- The log of building a workflow's graph. -/
def graphLog (w : Workflow) (scale : Binary64) : Records :=
  let tasks := w.jobs.foldl
    (fun g j => (g.addTask (.new j.id j.space j.name j.runtime scale)).1) Graph.empty
  jobsLog .empty scale w.jobs ++ dependenciesLog tasks w.dependencies ++
    match w.graph scale with
    | .ok g =>
      [⟨.debug, .graph, "built workflow graph",
        [.text "workflow" w.label, .count "tasks" g.size], none⟩]
    | .error _ => []

end Workflow

def simulationLog (events : Nat) (w : Workflow) (policy : Policy) (settings : Settings)
    (provisioner : Provisioner) : Records :=
  let scheduling := match w.graph settings.lengthScale with
    | .ok g => Scheduler.newLog g policy
    | .error _ => []
  let running := match w.broker policy settings with
    | .ok b => b.runLog events provisioner
    | .error _ => []
  let records := w.graphLog settings.lengthScale ++ scheduling ++ running
  Records.within records ⟨w.label, policy.name⟩

end Makespan
