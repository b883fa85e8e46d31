import Makespan.Graph.Basic

/-! Levels: a root has level 1, and any other task one more than the highest of its parents. The
tasks are visited from the roots on, each when its last parent has been. A task on a cycle, or
after one, is never visited, but may have been raised by the parents that were. -/

namespace Makespan

/-- A traversal from the roots that has come this far. -/
structure LevelPass where
  /-- For each task, how many of its parents are still to be visited. -/
  waiting : Array Nat
  levels : Array (Option Nat)
  /-- Tasks to be visited next, in order. -/
  queue : List TaskKey
  visited : Nat

namespace LevelPass

/-- A level only ever grows. -/
def raise (level : Nat) : Option Nat → Option Nat
  | none => some level
  | some current => if current < level then some level else some current

def start (g : Graph) (roots : List TaskKey) : LevelPass where
  waiting := g.nodes.map (·.parents.length)
  levels := roots.foldl (fun levels k => levels.modify k (raise 1)) (g.nodes.map (·.level))
  queue := roots
  visited := 0

/-- Counts a visited parent of `child` and raises the child above it. No level exceeds the number of
tasks by more than one (`Graph.level_le_of_preprocess`), so that levels of 32 bits are the same with
fewer than 2^32 - 2 tasks. -/
def reach (level : Nat) (s : LevelPass) (child : TaskKey) : LevelPass :=
  let left := s.waiting.getD child 0 - 1
  { s with
    waiting := s.waiting.modify child (· - 1)
    levels := s.levels.modify child (raise level)
    queue := if left = 0 then s.queue ++ [child] else s.queue }

/-- Visits the next task in the queue. -/
def step (g : Graph) (s : LevelPass) : LevelPass :=
  match s.queue with
  | [] => s
  | k :: rest =>
    let level := (s.levels.getD k none).getD 1 + 1
    (g.children k).foldl (reach level) { s with queue := rest, visited := s.visited + 1 }

def run (g : Graph) : Nat → LevelPass → LevelPass
  | 0, s => s
  | n + 1, s =>
    match s.queue with
    | [] => s
    | _ :: _ => run g n (s.step g)

end LevelPass

/-- The traversal to its end: no task is visited twice, so as many steps as tasks are enough. -/
def Graph.levelPass (g : Graph) (roots : List TaskKey) : LevelPass :=
  (LevelPass.start g roots).run g g.size

end Makespan
