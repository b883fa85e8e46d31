import Makespan.Log.Graph
import Makespan.Scheduler

/-! What is logged about a scheduler, told from the scheduler before. -/

namespace Makespan.Scheduler

open Log

def seedLog (policy : Policy) (keys : List TaskKey) : Records :=
  [⟨.debug, .scheduler, "scheduler seeded with workflow roots",
    [.text "policy" policy.name, .count "roots" keys.length], none⟩]

def seededLog (g : Graph) (policy : Policy) : Records :=
  if g.preprocessed then seedLog policy g.roots else []

def newLog (g : Graph) (policy : Policy) : Records :=
  g.preprocessLog policy.required ++
    match g.preprocess policy.required with
    | .ok g => seededLog g policy
    | .error _ => []

def cycleLog (s : Scheduler) : Records :=
  [⟨.trace, .scheduler, "scheduler cycle reordered ready queue",
    [.count "merged" s.arrivals.length, .count "queued" s.cycle.queue.length], none⟩]

def notifyLog (s : Scheduler) (k : TaskKey) : Records :=
  match (s.notify k).2 with
  | .error _ => []
  | .ok released => released.map fun c =>
    ⟨.debug, .scheduler, "dependencies satisfied; task is ready",
      [.text "task" (s.graph.id c), .text "after" (s.graph.id k)], none⟩

end Makespan.Scheduler
