import Makespan.Graph.Basic

/-! Descendants: a task's children and all of theirs. The tasks are visited from the tails on, each
when its last child has been, and each hands its set and itself to its parents. A task from which
a cycle can be reached is never visited, and keeps what the children that were handed to it. -/

namespace Makespan

/-- A traversal from the tails that has come this far. -/
structure DescendantPass where
  /-- For each task, how many of its children are still to be visited. -/
  waiting : Array Nat
  sets : Array KeySet
  /-- Tasks to be visited next, in order. -/
  queue : List TaskKey
  visited : Nat

namespace DescendantPass

def start (g : Graph) (tails : List TaskKey) : DescendantPass where
  waiting := g.nodes.map (·.children.length)
  sets := g.nodes.map (·.descendants)
  queue := tails
  visited := 0

/-- Counts a visited child of `parent` and hands its descendants on. -/
def reach (inherited : KeySet) (s : DescendantPass) (parent : TaskKey) : DescendantPass :=
  let left := s.waiting.getD parent 0 - 1
  { s with
    waiting := s.waiting.modify parent (· - 1)
    sets := s.sets.modify parent (·.union inherited)
    queue := if left = 0 then s.queue ++ [parent] else s.queue }

/-- Visits the next task in the queue. -/
def step (g : Graph) (s : DescendantPass) : DescendantPass :=
  match s.queue with
  | [] => s
  | k :: rest =>
    let inherited := (s.sets.getD k .empty).insert k
    (g.parents k).foldl (reach inherited) { s with queue := rest, visited := s.visited + 1 }

def run (g : Graph) : Nat → DescendantPass → DescendantPass
  | 0, s => s
  | n + 1, s =>
    match s.queue with
    | [] => s
    | _ :: _ => run g n (s.step g)

end DescendantPass

/-- The traversal to its end: no task is visited twice, so as many steps as tasks are enough. -/
def Graph.descendantPass (g : Graph) (tails : List TaskKey) : DescendantPass :=
  (DescendantPass.start g tails).run g g.size

end Makespan
