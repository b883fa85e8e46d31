import Makespan.Graph.Preprocess
import Makespan.Policy.Order

/-! The scheduler keeps the ready tasks of a preprocessed graph in policy order. Completions
release children into a buffer; a cycle merges the buffer into the queue and sorts the whole
queue again. -/

namespace Makespan

structure Scheduler where
  graph : Graph
  policy : Policy
  /-- Ready tasks that were not taken yet, in order. -/
  queue : List TaskKey
  /-- Tasks released since the last cycle. -/
  arrivals : List TaskKey
  /-- For each task, whether it has become ready. -/
  ready : Array Bool
  /-- For each task, whether it was executed. -/
  executed : Array Bool
  executedCount : Nat

namespace Scheduler

/-- Replaces the queue. -/
def seed (s : Scheduler) (keys : List TaskKey) : Scheduler :=
  { s with queue := keys }

/-- A scheduler for a preprocessed graph, with the roots in its queue. -/
def seeded (g : Graph) (policy : Policy) : Except Error Scheduler :=
  if g.preprocessed then
    .ok
      { graph := g, policy, queue := g.roots, arrivals := []
        ready := g.nodes.map (·.ready), executed := g.nodes.map fun _ => false
        executedCount := 0 }
  else .error .notPreprocessed

/-- Preprocesses the graph for the policy first. -/
def new (g : Graph) (policy : Policy) : Except Error Scheduler := do
  seeded (← g.preprocess policy.required) policy

/-- Merges the arrivals into the queue and sorts it. -/
def cycle (s : Scheduler) : Scheduler :=
  { s with queue := s.policy.order s.graph (s.queue ++ s.arrivals), arrivals := [] }

def isReady (s : Scheduler) (k : TaskKey) : Bool := s.ready.getD k false

def isExecuted (s : Scheduler) (k : TaskKey) : Bool := s.executed.getD k false

/-- The children of `k` that are not ready though all their parents are executed. -/
def releasable (s : Scheduler) (k : TaskKey) : List TaskKey :=
  (s.graph.children k).filter fun c => !s.isReady c && (s.graph.parents c).all s.isExecuted

/-- Records that a task finished, and gives the children that this made ready. The scheduler is
given as the call leaves it, a failed call too. -/
def notify (s : Scheduler) (k : TaskKey) : Scheduler × Except Error (List TaskKey) :=
  if s.isExecuted k then (s, .error (.alreadyExecuted (s.graph.id k)))
  else
    let s :=
      { s with executed := s.executed.setIfInBounds k true, executedCount := s.executedCount + 1 }
    let released := s.releasable k
    let ready := released.foldl (fun flags c => flags.setIfInBounds c true) s.ready
    ({ s with ready, arrivals := s.arrivals ++ released }, .ok released)

/-- Takes the head of the queue. -/
def take? (s : Scheduler) : Option (TaskKey × Scheduler) :=
  match s.queue with
  | [] => none
  | k :: rest => some (k, { s with queue := rest })

/-- How many tasks were not executed yet. -/
def remaining (s : Scheduler) : Nat := s.graph.size - s.executedCount

def hasWork (s : Scheduler) : Bool := s.executedCount < s.graph.size

end Scheduler

end Makespan
