import Makespan.Broker.Basic

/-! How a broker handles what it is asked to do. Each event is accepted in one phase only. A request
that fails leaves the broker as far as it had come when the failure was found. -/

namespace Makespan

/-- How creation requests are answered. -/
inductive Answer where
  | created | refused | crashed
  deriving DecidableEq

/-- Decides on the creation of each worker. A pool asks for each worker once and in order, so that
the answers need no memory. -/
abbrev Provisioner := WorkerId → Answer

def Provisioner.always : Provisioner := fun _ => .created

/-- Refuses the listed workers. -/
def Provisioner.failing (ids : List WorkerId) : Provisioner := fun w =>
  if w ∈ ids then .refused else .created

/-- A broker after a request, and why the request failed if it did. -/
structure Outcome where
  broker : Broker
  error? : Option Error := none

namespace Broker

/-- Asks for every worker of the pool. -/
def start (b : Broker) (provisioner : Provisioner) : Except Error Broker :=
  if b.phase ≠ .init then .error (.invalidTransition b.phase .start)
  else if b.pool.workers.any fun w => provisioner w.id = .crashed then
    .error .provisioningCrashed
  else
    .ok <| b.pool.workers.foldl
      (fun b w => b.schedule b.clock (.workerCreated w.id (provisioner w.id = .created)))
      { b with phase := .provisioning }

/-- Takes one answer to a creation request. The last answer starts the scheduling; a worker that
was not created only makes the pool smaller. -/
def handleCreated (b : Broker) (worker : WorkerId) (created : Bool) : Outcome :=
  match b.pool.acknowledge worker created with
  | .error e => ⟨b, some e⟩
  | .ok pool =>
    let speed := (pool.worker? worker).elim 0 (·.speed)
    let b := { b with pool, acknowledged := b.acknowledged + 1 }.record
      (.acknowledged b.clock worker speed created)
    if b.acknowledged < pool.size then ⟨b, none⟩
    else if pool.usable = 0 then ⟨b, some .noUsableWorkers⟩
    else ⟨{ b with phase := .scheduling }.schedule b.clock .nextCycle, none⟩

/-- Binds a task to a worker and schedules its completion. -/
def dispatch (b : Broker) (task : TaskKey) (worker : WorkerId) : Outcome :=
  match b.pool.claim worker task with
  | .error e => ⟨b, some e⟩
  | .ok pool =>
    let length := (b.scheduler.graph.nodes[task]?).elim 0 (·.task.length)
    let duration := (pool.worker? worker).elim 0 (·.executionTime length)
    let b := { b with pool }.record (.dispatch b.clock (b.scheduler.graph.id task) worker)
    ⟨b.schedule (b.clock + duration) (.taskFinished worker task b.clock), none⟩

/-- Gives the idle workers one ready task each, for as long as there are any. -/
def dispatchAll (b : Broker) : List WorkerId → Outcome
  | [] => ⟨b, none⟩
  | worker :: rest =>
    match b.scheduler.take? with
    | none => ⟨b, none⟩
    | some (task, scheduler) =>
      match { b with scheduler }.dispatch task worker with
      | ⟨b, none⟩ => b.dispatchAll rest
      | failed => failed

/-- Sets the timer again while work remains. Work that nobody holds and that is not ready will
never be done. -/
def rearm (b : Broker) : Outcome :=
  if !b.scheduler.hasWork then ⟨b, none⟩
  else if b.pool.busy = 0 ∧ b.scheduler.queue = [] then
    ⟨b, some (.stalled b.clock b.scheduler.remaining)⟩
  else ⟨b.schedule (b.clock + b.cycleDelay) .nextCycle, none⟩

/-- One scheduling cycle. -/
def handleCycle (b : Broker) : Outcome :=
  let scheduler := b.scheduler.cycle
  let idle := b.pool.idle
  let b := { b with scheduler }.record
    (.cycle b.clock (scheduler.queue.map scheduler.graph.id) idle)
  match b.dispatchAll idle with
  | ⟨b, none⟩ => b.rearm
  | failed => failed

/-- Frees the worker and tells the scheduler. Children that this makes ready wait for the next
cycle. -/
def handleFinished (b : Broker) (worker : WorkerId) (task : TaskKey) (started : Time) : Outcome :=
  match b.pool.release worker with
  | .error e => ⟨b, some e⟩
  | .ok (pool, held) =>
    let b := { b with pool }
    if held ≠ task then ⟨b, some (.otherTaskHeld worker task held)⟩
    else
      match b.scheduler.notify task with
      | (scheduler, .error e) => ⟨{ b with scheduler }, some e⟩
      | (scheduler, .ok _) =>
        let executed := b.executed + 1
        let b := { b with scheduler, executed, lastCompletion := b.clock }
        ⟨b.record
          (.completion b.clock (scheduler.graph.id task) worker started b.clock executed), none⟩

/-- Ends the run; the clock now is the makespan. -/
def handleEnd (b : Broker) : Outcome :=
  if b.scheduler.hasWork then ⟨b, some (.stalled b.clock b.scheduler.remaining)⟩
  else
    ⟨{ b with phase := .terminated, finishTime := some b.clock }.record
      (.finished b.clock b.executed), none⟩

/-- Handles one event at the current clock. -/
def step (b : Broker) (event : Event) : Outcome :=
  match b.phase, event with
  | .provisioning, .workerCreated worker created => b.handleCreated worker created
  | .scheduling, .nextCycle => b.handleCycle
  | .scheduling, .taskFinished worker task started => b.handleFinished worker task started
  | .scheduling, .endOfSimulation => b.handleEnd
  | phase, event => ⟨b, some (.invalidTransition phase event.request)⟩

end Broker

end Makespan
