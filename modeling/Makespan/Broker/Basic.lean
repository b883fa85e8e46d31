import Makespan.Broker.Trace
import Makespan.EventQueue
import Makespan.Pool
import Makespan.Scheduler
import Makespan.Text.Quoted

/-! The broker pairs the ready tasks of one workflow with the idle workers of one pool. Simulated
time passes only from event to event. -/

namespace Makespan

inductive Event where
  /-- A creation request is answered. -/
  | workerCreated (worker : WorkerId) (created : Bool)
  /-- The timer: one scheduling cycle is due. -/
  | nextCycle
  | taskFinished (worker : WorkerId) (task : TaskKey) (started : Time)
  /-- Nothing else is pending. -/
  | endOfSimulation
  deriving DecidableEq

def Event.request : Event → Request
  | workerCreated _ _ => .workerCreated
  | nextCycle => .nextCycle
  | taskFinished _ _ _ => .taskFinished
  | endOfSimulation => .endOfSimulation

structure Broker where
  /-- The workflow's name. -/
  label : String
  phase : Phase := .init
  clock : Time := .zero
  events : EventQueue Event := .empty
  pool : Pool
  scheduler : Scheduler
  /-- The time from one scheduling cycle to the next. -/
  cycleDelay : Time
  /-- How many creation requests were answered. -/
  acknowledged : Nat := 0
  executed : Nat := 0
  lastCompletion : Time := .zero
  /-- Set when the run came to its end. -/
  finishTime : Option Time := none
  trace : Array TraceEntry := #[]

namespace Broker

/-- A broker that has done nothing yet. -/
def new (label : String) (scheduler : Scheduler) (tiers : List Tier) (cycleDelay : Time) : Broker :=
  { label, pool := .ofTiers tiers, scheduler, cycleDelay }

def record (b : Broker) (entry : TraceEntry) : Broker :=
  { b with trace := b.trace.push entry }

def schedule (b : Broker) (time : Time) (event : Event) : Broker :=
  { b with events := b.events.schedule time event }

/-- One line on the state of a broker. -/
def summary (b : Broker) : String :=
  "DispatchLoop \x7b label: " ++ Text.quoted b.label ++ ", state: " ++ b.phase.name ++
    ", clock: " ++ b.clock.literal ++ ", executed: " ++ toString b.executed ++ ", pending_events: " ++
    toString b.events.size ++ ", .. \x7d"

end Broker

end Makespan
