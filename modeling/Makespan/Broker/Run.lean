import Makespan.Broker.Step

/-! A run: the broker is started and handles its own events in order of time until it has ended.
A timer that no longer moves the clock would tick forever, so that a run is given a number of
events that it may take. -/

namespace Makespan

namespace Broker

/-- The report of a run that came to its end. -/
def report (b : Broker) : Except Error Report :=
  match b.finishTime with
  | none => .error (.invalidTransition b.phase .report)
  | some makespan =>
    .ok
      { workflow := b.label, policy := b.scheduler.policy, makespan
        lastCompletion := b.lastCompletion, executed := b.executed, trace := b.trace }

/-- A run after one more event. -/
inductive Progress where
  | running (b : Broker)
  | ended (result : Except Error Report)

/-- Ends the run once the broker has terminated; when nothing is pending any more, announces the
end. -/
def settle (b : Broker) : Progress :=
  if b.phase = .terminated then .ended b.report
  else if b.events.isEmpty then .running (b.schedule b.clock .endOfSimulation)
  else .running b

/-- Moves the clock to the next event and handles it. -/
def advance (b : Broker) : Progress :=
  match b.events.pop? with
  | none => .ended b.report
  | some (time, event, events) =>
    match { b with clock := time, events }.step event with
    | ⟨_, some e⟩ => .ended (.error e)
    | ⟨b, none⟩ => b.settle

/-- Goes on for at most so many events; `none` if they were not enough. -/
def runFor : Nat → Broker → Option (Except Error Report)
  | 0, _ => none
  | n + 1, b =>
    match b.advance with
    | .ended result => some result
    | .running b => runFor n b

/-- Starts the broker and runs it for at most so many events. -/
def run? (events : Nat) (b : Broker) (provisioner : Provisioner) :
    Option (Except Error Report) :=
  match b.start provisioner with
  | .error e => some (.error e)
  | .ok b => b.runFor events

end Broker

end Makespan
