import Makespan.Graph.Basic
import Makespan.Policy

/-! The order of a policy: ascending by an integer rank, where tasks of one rank keep their
places. -/

namespace Makespan.Policy

/-- Where a task without a level stands: after every level. -/
def lastLevel : Nat := 0xffffffff

/-- Shortest first ranks by the runtime in the total order of all values, level based by the level,
and subsequent tasks by the number of descendants, the highest first. -/
def rank (p : Policy) (n : Node) : Int :=
  match p with
  | shortestFirst => n.task.runtime.rank
  | levelBased => n.level.getD lastLevel
  | subsequentTasks => -(n.descendants.size : Int)

def rankOf (p : Policy) (g : Graph) (k : TaskKey) : Int :=
  (g.nodes[k]?.map p.rank).getD 0

def order (p : Policy) (g : Graph) (keys : List TaskKey) : List TaskKey :=
  keys.mergeSort fun a b => decide (p.rankOf g a ≤ p.rankOf g b)

end Makespan.Policy
