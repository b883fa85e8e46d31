import Makespan.Policy
import Makespan.Error

/-! What a run leaves behind: a trace of everything that could be observed, in order, and the
report of a run that came to its end. -/

namespace Makespan

inductive TraceEntry where
  /-- A creation request was answered. -/
  | acknowledged (time : Time) (worker : WorkerId) (speed : Binary64) (created : Bool)
  /-- A scheduling cycle found these ready tasks and idle workers, in order. -/
  | cycle (time : Time) (ready : List String) (idle : List WorkerId)
  | dispatch (time : Time) (task : String) (worker : WorkerId)
  /-- A task finished, as number `executed` of the run. -/
  | completion (time : Time) (task : String) (worker : WorkerId) (started finished : Time)
      (executed : Nat)
  | finished (time : Time) (executed : Nat)
  deriving DecidableEq

namespace TraceEntry

def time : TraceEntry → Time
  | acknowledged t _ _ _ => t
  | cycle t _ _ => t
  | dispatch t _ _ => t
  | completion t _ _ _ _ _ => t
  | finished t _ => t

def dispatched? : TraceEntry → Option String
  | dispatch _ task _ => some task
  | _ => none

def completed? : TraceEntry → Option String
  | completion _ task _ _ _ _ => some task
  | _ => none

def isCycle : TraceEntry → Bool
  | cycle _ _ _ => true
  | _ => false

end TraceEntry

structure Report where
  workflow : String
  policy : Policy
  /-- The clock at the end of the run. -/
  makespan : Time
  /-- When the last task finished. -/
  lastCompletion : Time
  executed : Nat
  trace : Array TraceEntry

namespace Report

/-- The tasks in the order in which they were dispatched. -/
def dispatchOrder (r : Report) : List String := r.trace.toList.filterMap (·.dispatched?)

/-- The tasks in the order in which they finished. -/
def completionOrder (r : Report) : List String := r.trace.toList.filterMap (·.completed?)

def cycles (r : Report) : Nat := r.trace.countP (·.isCycle)

end Report

end Makespan
