import Makespan.Broker.Run
import Makespan.Log.Scheduler

/-! What is logged about a broker, told from the broker before. -/

namespace Makespan.Broker

open Log

def startLog (b : Broker) (provisioner : Provisioner) : Records :=
  if b.phase ≠ .init then []
  else
    let answered := b.pool.workers.toList.takeWhile fun w => provisioner w.id ≠ .crashed
    ⟨.info, .broker, "starting simulation",
      [.text "workflow" b.label, .text "policy" b.scheduler.policy.name,
        .count "tasks" b.scheduler.graph.size, .count "workers" b.pool.size], none⟩ ::
      answered.map fun w =>
        ⟨.debug, .broker, "requested worker creation",
          [.count "worker" w.id, .number "mips" w.speed], none⟩

def createdLog (b : Broker) (worker : WorkerId) (created : Bool) : Records :=
  match b.pool.acknowledge worker created with
  | .error _ => []
  | .ok pool =>
    let speed := (pool.worker? worker).elim 0 (·.speed)
    let fields : List Field :=
      [.number "at" b.clock, .count "worker" worker, .number "mips" speed]
    let answer : Record :=
      if created then ⟨.debug, .events, "worker created", fields, none⟩
      else ⟨.warn, .events, "worker creation failed; continuing without it", fields, none⟩
    if b.acknowledged + 1 < pool.size ∨ pool.usable = 0 then [answer]
    else
      [answer,
        ⟨.info, .events, "all workers acknowledged; starting scheduling",
          [.number "at" b.clock, .count "usable" pool.usable,
            .count "failed" (pool.size - pool.usable)], none⟩]

def dispatchAllLog (b : Broker) : List WorkerId → Records
  | [] => []
  | worker :: rest =>
    match b.scheduler.take? with
    | none => []
    | some (task, scheduler) =>
      match { b with scheduler }.dispatch task worker with
      | ⟨after, none⟩ =>
        let length := (b.scheduler.graph.nodes[task]?).elim 0 (·.task.length)
        let duration := (b.pool.worker? worker).elim 0 (·.executionTime length)
        ⟨.info, .events, "dispatching task",
          [.number "at" b.clock, .text "task" (b.scheduler.graph.id task),
            .count "worker" worker, .number "duration" duration], none⟩ :: after.dispatchAllLog rest
      | _ => []

def cycleLog (b : Broker) : Records :=
  let scheduler := b.scheduler.cycle
  let idle := b.pool.idle
  let b' := { b with scheduler }
  let ready := scheduler.queue.map scheduler.graph.id
  let atEnd : Records :=
    match b'.dispatchAll idle with
    | ⟨after, none⟩ =>
      if after.scheduler.hasWork then []
      else
        [⟨.debug, .events, "no remaining work; timer not re-armed", [.number "at" b.clock], none⟩]
    | _ => []
  b.scheduler.cycleLog ++
    ⟨.debug, .events, "scheduling cycle",
      [.number "at" b.clock, .quotedTexts "ready" ready,
        .texts "idle" (idle.map toString)], none⟩ ::
    (b'.dispatchAllLog idle ++ atEnd)

def finishedLog (b : Broker) (worker : WorkerId) (task : TaskKey) (started : Time) : Records :=
  match b.pool.release worker with
  | .error _ => []
  | .ok (_, held) =>
    if held ≠ task then []
    else
      match b.scheduler.notify task with
      | (_, .error _) => []
      | (_, .ok released) =>
        b.scheduler.notifyLog task ++
          [⟨.info, .events, "task finished",
            [.number "at" b.clock, .text "task" (b.scheduler.graph.id task),
              .count "worker" worker, .number "start" started, .number "end" b.clock,
              .count "executed" (b.executed + 1), .count "released" released.length], none⟩]

def endLog (b : Broker) : Records :=
  if b.scheduler.hasWork then []
  else
    [⟨.info, .events, "simulation finished",
      [.number "at" b.clock, .count "executed" b.executed,
        .number "last_completion" b.lastCompletion], none⟩]

def stepLog (b : Broker) (event : Event) : Records :=
  match b.phase, event with
  | .provisioning, .workerCreated worker created => b.createdLog worker created
  | .scheduling, .nextCycle => b.cycleLog
  | .scheduling, .taskFinished worker task started => b.finishedLog worker task started
  | .scheduling, .endOfSimulation => b.endLog
  | _, _ => []

def advanceLog (b : Broker) : Records :=
  match b.events.pop? with
  | none => []
  | some (time, event, events) => { b with clock := time, events }.stepLog event

/-- Goes on with the log of a run for at most so many events. -/
def runForLog : Nat → Broker → Array Record → Array Record
  | 0, _, log => log
  | n + 1, b, log =>
    let log := log ++ b.advanceLog
    match b.advance with
    | .ended _ => log
    | .running b => runForLog n b log

def runLog (events : Nat) (b : Broker) (provisioner : Provisioner) : Records :=
  b.startLog provisioner ++
    match b.start provisioner with
    | .error _ => []
    | .ok b => (b.runForLog events #[]).toList

end Makespan.Broker
