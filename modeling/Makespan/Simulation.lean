import Makespan.Broker.Run
import Makespan.Settings
import Makespan.Workflow.Basic

/-! One workflow under one policy, from its description to the report. -/

namespace Makespan

/-- The graph of a workflow: all jobs in order, then all dependencies in order. -/
def Workflow.graph (w : Workflow) (scale : Binary64) : Except Error Graph :=
  let tasks := w.jobs.foldl
    (fun g j => (g.addTask (.new j.id j.space j.name j.runtime scale)).1) Graph.empty
  w.dependencies.foldlM (fun g d => g.addDependency d.child d.parents) tasks

/-- The broker that a run starts with. -/
def Workflow.broker (w : Workflow) (policy : Policy) (settings : Settings) :
    Except Error Broker := do
  let scheduler ← Scheduler.new (← w.graph settings.lengthScale) policy
  return .new w.label scheduler settings.tiers settings.cycleDelay

/-- Simulates a workflow for at most so many events; `none` if they were not enough. -/
def simulate? (events : Nat) (w : Workflow) (policy : Policy) (settings : Settings)
    (provisioner : Provisioner) : Option (Except Error Report) :=
  match w.broker policy settings with
  | .error e => some (.error e)
  | .ok b => b.run? events provisioner

end Makespan
