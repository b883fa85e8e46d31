import Makespan.Broker.Run
import Makespan.Proofs.Pool.Holding
import Makespan.Proofs.Scheduler.Accounted

/-! What each call can do to a broker. Every handler either refuses and leaves the broker alone, or
makes one of a few changes, which have names here. The one exception frees a worker although it
refuses: a completion of a task that the worker does not hold. -/

namespace Makespan

/-- Answers every creation request. -/
def Provisioner.answering (created : WorkerId → Bool) : Provisioner := fun w =>
  if created w then .created else .refused

/-- A task bound to a worker. -/
structure Assignment where
  started : Time
  task : TaskKey
  worker : WorkerId
  deriving DecidableEq

/-- The instructions of a task. -/
def Graph.workLength (g : Graph) (k : TaskKey) : Nat := (g.nodes[k]?).elim 0 (·.task.length)

namespace Broker

inductive Call where
  | start (created : WorkerId → Bool)
  | step (event : Event)

def call (b : Broker) : Call → Outcome
  | .start created =>
    match b.start (.answering created) with
    | .ok b' => ⟨b', none⟩
    | .error e => ⟨b, some e⟩
  | .step event => b.step event

/-- The broker after some calls, whether they succeeded or not. -/
def after (b : Broker) (calls : List Call) : Broker :=
  calls.foldl (fun b c => (b.call c).broker) b

/-- What holds of a broker and is kept by every call holds after any calls. -/
theorem after_induct {I : Broker → Prop} (hI : ∀ b c, I b → I (b.call c).broker) {b : Broker}
    (h : I b) (calls : List Call) : I (b.after calls) := by
  induction calls generalizing b with
  | nil => exact h
  | cons c calls ih => exact ih (hI b c h)

/-! ## The changes -/

/-- Takes an answer to a creation request. -/
def acknowledge (b : Broker) (w : WorkerId) (created : Bool) : Broker :=
  { b with
    pool := b.pool.setStatus w (if created then .available else .failed)
    acknowledged := b.acknowledged + 1 }.record
      (.acknowledged b.clock w ((b.pool.worker? w).elim 0 (·.speed)) created)

/-- Schedules some events, one after the other. -/
def scheduleAll (q : EventQueue Event) (events : List (Time × Event)) : EventQueue Event :=
  events.foldl (fun q e => q.schedule e.1 e.2) q

/-- The last answer starts the scheduling. -/
def beginScheduling (b : Broker) : Broker :=
  { b with phase := .scheduling }.schedule b.clock .nextCycle

/-- When an assignment will be finished. -/
def due (b : Broker) (a : Assignment) : Time :=
  a.started + b.pool.executionTime a.worker (b.scheduler.graph.workLength a.task)

/-- Sorts the queue and records what a cycle finds. -/
def beginCycle (b : Broker) : Broker :=
  { b with scheduler := b.scheduler.cycle }.record
    (.cycle b.clock (b.scheduler.cycle.queue.map b.scheduler.graph.id) b.pool.idle)

/-- Takes the head of the queue for a worker. -/
def assign (b : Broker) (a : Assignment) : Broker :=
  ({ b with
      pool := b.pool.setRunning a.worker (some a.task)
      scheduler := { b.scheduler with queue := b.scheduler.queue.tail } }.record
    (.dispatch a.started (b.scheduler.graph.id a.task) a.worker)).schedule (b.due a)
      (.taskFinished a.worker a.task a.started)

/-- Frees a worker. -/
def free (b : Broker) (w : WorkerId) : Broker := { b with pool := b.pool.setRunning w none }

/-- Frees a worker whose task is finished. -/
def complete (b : Broker) (a : Assignment) : Broker :=
  { b.free a.worker with
    scheduler := b.scheduler.finish a.task
    executed := b.executed + 1
    lastCompletion := b.clock }.record
      (.completion b.clock (b.scheduler.graph.id a.task) a.worker a.started b.clock
        (b.executed + 1))

def terminate (b : Broker) : Broker :=
  { b with phase := .terminated, finishTime := some b.clock }.record
    (.finished b.clock b.executed)

/-! ## What no call changes -/

structure SameSetup (b c : Broker) : Prop where
  graph : c.scheduler.graph = b.scheduler.graph
  policy : c.scheduler.policy = b.scheduler.policy
  label : c.label = b.label
  delay : c.cycleDelay = b.cycleDelay
  size : c.pool.size = b.pool.size
  speed : ∀ w, c.pool.speed? w = b.pool.speed? w

namespace SameSetup

variable {b c d : Broker}

theorem refl (b : Broker) : SameSetup b b := ⟨rfl, rfl, rfl, rfl, rfl, fun _ => rfl⟩

theorem trans (h : SameSetup b c) (h' : SameSetup c d) : SameSetup b d :=
  ⟨h'.graph.trans h.graph, h'.policy.trans h.policy, h'.label.trans h.label,
    h'.delay.trans h.delay, h'.size.trans h.size, fun w => (h'.speed w).trans (h.speed w)⟩

theorem due (h : SameSetup b c) (a : Assignment) : c.due a = b.due a := by
  rw [Broker.due, Broker.due, h.graph, Pool.executionTime_congr (h.speed _)]

theorem at_event (b : Broker) (clock : Time) (events : EventQueue Event) :
    SameSetup b { b with clock, events } := ⟨rfl, rfl, rfl, rfl, rfl, fun _ => rfl⟩

theorem schedule (b : Broker) (time : Time) (event : Event) :
    SameSetup b (b.schedule time event) := ⟨rfl, rfl, rfl, rfl, rfl, fun _ => rfl⟩

theorem acknowledge (b : Broker) (w : WorkerId) (created : Bool) :
    SameSetup b (b.acknowledge w created) :=
  ⟨rfl, rfl, rfl, rfl, Pool.size_setStatus _ _ _, fun _ => Pool.speed?_setStatus _ _ _ _⟩

theorem beginScheduling (b : Broker) : SameSetup b b.beginScheduling :=
  ⟨rfl, rfl, rfl, rfl, rfl, fun _ => rfl⟩

theorem beginCycle (b : Broker) : SameSetup b b.beginCycle :=
  ⟨rfl, rfl, rfl, rfl, rfl, fun _ => rfl⟩

theorem assign (b : Broker) (a : Assignment) : SameSetup b (b.assign a) :=
  ⟨rfl, rfl, rfl, rfl, Pool.size_setRunning _ _ _, fun _ => Pool.speed?_setRunning _ _ _ _⟩

theorem free (b : Broker) (w : WorkerId) : SameSetup b (b.free w) :=
  ⟨rfl, rfl, rfl, rfl, Pool.size_setRunning _ _ _, fun _ => Pool.speed?_setRunning _ _ _ _⟩

theorem complete (b : Broker) (a : Assignment) : SameSetup b (b.complete a) :=
  ⟨rfl, rfl, rfl, rfl, Pool.size_setRunning _ _ _, fun _ => Pool.speed?_setRunning _ _ _ _⟩

theorem terminate (b : Broker) : SameSetup b b.terminate :=
  ⟨rfl, rfl, rfl, rfl, rfl, fun _ => rfl⟩

end SameSetup

/-! ## Starting -/

/-- Asks for the workers one by one. -/
def requestAll (b : Broker) (created : WorkerId → Bool) : Broker :=
  b.pool.workers.foldl (fun b w => b.schedule b.clock (.workerCreated w.id (created w.id)))
    { b with phase := .provisioning }

theorem start_of_init {b : Broker} (h : b.phase = .init) (p : Provisioner) :
    b.start p = if b.pool.workers.any fun w => p w.id = .crashed then .error .provisioningCrashed
      else .ok (b.requestAll fun w => p w = .created) := by
  simp only [start, h, ne_eq, not_true_eq_false, if_false]
  rfl

theorem start_answering {b : Broker} (h : b.phase = .init) (created : WorkerId → Bool) :
    b.start (.answering created) = .ok (b.requestAll created) := by
  have hc : ∀ w : Worker, (Provisioner.answering created w.id = .crashed) = False := fun w => by
    cases hw : created w.id <;> simp [Provisioner.answering, hw]
  have ha : (fun w => decide (Provisioner.answering created w = .created)) = created := by
    funext w
    cases hw : created w <;> simp [Provisioner.answering, hw]
  have hn : (b.pool.workers.any fun _ => false) = false := by simp
  simp only [start_of_init h, hc, decide_false, hn, Bool.false_eq_true, if_false, ha]

theorem start_of_started {b : Broker} (h : b.phase ≠ .init) (p : Provisioner) :
    b.start p = .error (.invalidTransition b.phase .start) := by simp [start, h]

/-- Requests touch nothing but the phase and the events. -/
theorem requestAll_eq (b : Broker) (created : WorkerId → Bool) :
    b.requestAll created =
      { b with
        phase := .provisioning
        events := scheduleAll b.events (b.pool.workers.toList.map fun w =>
          (b.clock, .workerCreated w.id (created w.id))) } := by
  have hl : ∀ (ws : List Worker) (c : Broker),
      ws.foldl (fun b w => b.schedule b.clock (.workerCreated w.id (created w.id))) c =
        { c with
          events := scheduleAll c.events (ws.map fun w =>
            (c.clock, .workerCreated w.id (created w.id))) } := by
    intro ws
    induction ws with
    | nil => exact fun c => rfl
    | cons w ws ih => exact fun c => ih (c.schedule c.clock (.workerCreated w.id (created w.id)))
  rw [requestAll, ← Array.foldl_toList]
  exact hl b.pool.workers.toList { b with phase := .provisioning }

theorem exists_requestAll_eq (b : Broker) (created : WorkerId → Bool) :
    ∃ events, b.requestAll created = { b with phase := .provisioning, events } :=
  ⟨_, requestAll_eq b created⟩

@[simp] theorem phase_requestAll (b : Broker) (created : WorkerId → Bool) :
    (b.requestAll created).phase = .provisioning := by
  obtain ⟨events, he⟩ := exists_requestAll_eq b created
  rw [he]

@[simp] theorem trace_requestAll (b : Broker) (created : WorkerId → Bool) :
    (b.requestAll created).trace = b.trace := by
  obtain ⟨events, he⟩ := exists_requestAll_eq b created
  rw [he]

@[simp] theorem acknowledged_requestAll (b : Broker) (created : WorkerId → Bool) :
    (b.requestAll created).acknowledged = b.acknowledged := by
  obtain ⟨events, he⟩ := exists_requestAll_eq b created
  rw [he]

theorem SameSetup.requestAll (b : Broker) (created : WorkerId → Bool) :
    SameSetup b (b.requestAll created) := by
  obtain ⟨events, he⟩ := exists_requestAll_eq b created
  rw [he]
  exact ⟨rfl, rfl, rfl, rfl, rfl, fun _ => rfl⟩

/-! ## Events while the broker schedules -/

theorem step_nextCycle {b : Broker} (h : b.phase = .scheduling) :
    b.step .nextCycle = b.handleCycle := by simp only [step, h]

theorem step_taskFinished {b : Broker} (h : b.phase = .scheduling) (w : WorkerId) (task : TaskKey)
    (started : Time) : b.step (.taskFinished w task started) = b.handleFinished w task started := by
  simp only [step, h]

theorem step_endOfSimulation {b : Broker} (h : b.phase = .scheduling) :
    b.step .endOfSimulation = b.handleEnd := by simp only [step, h]

/-! ## Acknowledgements -/

theorem handleCreated_of_lt {b : Broker} {w : WorkerId} (h : w < b.pool.size) (created : Bool) :
    b.handleCreated w created =
      if b.acknowledged + 1 < b.pool.size then ⟨b.acknowledge w created, none⟩
      else if (b.acknowledge w created).pool.usable = 0 then
        ⟨b.acknowledge w created, some .noUsableWorkers⟩
      else ⟨(b.acknowledge w created).beginScheduling, none⟩ := by
  have hspeed : ((b.pool.setStatus w (if created then .available else .failed)).worker? w).elim 0
      (·.speed) = (b.pool.worker? w).elim 0 (·.speed) := by
    rw [Pool.worker?_setStatus]
    cases b.pool.worker? w <;> rfl
  simp only [handleCreated, Pool.acknowledge_of_lt h, Pool.size_setStatus, hspeed]
  rfl

theorem handleCreated_of_not_lt {b : Broker} {w : WorkerId} (h : ¬ w < b.pool.size)
    (created : Bool) : b.handleCreated w created = ⟨b, some (.unknownWorker w)⟩ := by
  simp only [handleCreated, Pool.acknowledge_of_not_lt h]

/-! ## Cycles -/

/-- A worker that may be given a task. -/
def CanTake (b : Broker) (w : WorkerId) : Prop :=
  b.pool.status? w = some .available ∧ b.pool.holds? w = none

/-- Serving one worker leaves the others as they are. -/
theorem CanTake.assign {b : Broker} {v w : WorkerId} (hv : b.CanTake v) (hw : b.CanTake w)
    (hne : v ≠ w) (task : TaskKey) : (b.assign ⟨b.clock, task, w⟩).CanTake v := by
  refine ⟨by simpa [Broker.assign, record, schedule] using hv.1, ?_⟩
  simpa [Broker.assign, record, schedule, Pool.holds?_setRunning (Pool.lt_of_status? hw.1), hne]
    using hv.2

theorem dispatchAll_of_empty {b : Broker} (h : b.scheduler.queue = []) (ws : List WorkerId) :
    b.dispatchAll ws = ⟨b, none⟩ := by
  cases ws <;> simp [dispatchAll, Scheduler.take?, h]

theorem dispatchAll_cons {b : Broker} {w : WorkerId} (hw : b.CanTake w) {task : TaskKey}
    {rest : List TaskKey} (hq : b.scheduler.queue = task :: rest) (ws : List WorkerId) :
    b.dispatchAll (w :: ws) = (b.assign ⟨b.clock, task, w⟩).dispatchAll ws := by
  have hd : { b with scheduler := { b.scheduler with queue := rest } }.dispatch task w =
      ⟨b.assign ⟨b.clock, task, w⟩, none⟩ := by
    have ht := Pool.executionTime_setRunning b.pool w w (some task)
      (b.scheduler.graph.workLength task)
    simp only [Pool.executionTime, Graph.workLength] at ht
    simp only [dispatch, Pool.claim_of_idle hw.1 hw.2, ht]
    simp only [assign, due, hq, List.tail_cons]
    rfl
  simp only [dispatchAll, Scheduler.take?, hq, hd]

/-- Idle workers can be served without a failure: what each assignment keeps holds at the end. -/
theorem dispatchAll_induct {I : Broker → Prop}
    (hI : ∀ b task rest w, I b → b.scheduler.queue = task :: rest → b.CanTake w →
      I (b.assign ⟨b.clock, task, w⟩)) {ws : List WorkerId} (hn : ws.Nodup) {b : Broker}
    (hws : ∀ w ∈ ws, b.CanTake w) (h : I b) : ∃ b', b.dispatchAll ws = ⟨b', none⟩ ∧ I b' := by
  induction ws generalizing b with
  | nil => exact ⟨b, rfl, h⟩
  | cons w ws ih =>
    have hw : b.CanTake w := hws w (by simp)
    obtain ⟨hnw, hn⟩ := List.nodup_cons.mp hn
    cases hq : b.scheduler.queue with
    | nil => exact ⟨b, dispatchAll_of_empty hq _, h⟩
    | cons task rest =>
      rw [dispatchAll_cons hw hq]
      refine ih hn (fun v hv => ?_) (hI b task rest w h hq hw)
      exact (hws v (List.mem_cons_of_mem w hv)).assign hw (fun he => hnw (he ▸ hv)) task

/-- A cycle serves the idle workers and then sets the timer. -/
theorem handleCycle_of_dispatchAll {b b' : Broker}
    (h : b.beginCycle.dispatchAll b.pool.idle = ⟨b', none⟩) : b.handleCycle = b'.rearm := by
  have hg : b.scheduler.cycle.graph = b.scheduler.graph := rfl
  unfold beginCycle at h
  simp only [handleCycle, hg, h]

theorem handleCycle_of_failure {b b' : Broker} {e : Error}
    (h : b.beginCycle.dispatchAll b.pool.idle = ⟨b', some e⟩) : b.handleCycle = ⟨b', some e⟩ := by
  have hg : b.scheduler.cycle.graph = b.scheduler.graph := rfl
  unfold beginCycle at h
  simp only [handleCycle, hg, h]

theorem handleCycle_induct {b : Broker} (hp : b.pool.Numbered) {I : Broker → Prop}
    (hI : ∀ b task rest w, I b → b.scheduler.queue = task :: rest → b.CanTake w →
      I (b.assign ⟨b.clock, task, w⟩)) (h : I b.beginCycle) :
    ∃ b', b.handleCycle = b'.rearm ∧ I b' := by
  obtain ⟨b', hb', hI'⟩ := dispatchAll_induct hI hp.idle_nodup (b := b.beginCycle)
    (fun w hw => hp.mem_idle_iff.mp hw) h
  exact ⟨b', handleCycle_of_dispatchAll hb', hI'⟩

/-- Nothing is left to do, nothing can ever be done, or the next cycle is due after the delay. -/
theorem rearm_eq (b : Broker) : b.rearm =
    if b.scheduler.hasWork = false then ⟨b, none⟩
    else if b.pool.busy = 0 ∧ b.scheduler.queue = [] then
      ⟨b, some (.stalled b.clock b.scheduler.remaining)⟩
    else ⟨b.schedule (b.clock + b.cycleDelay) .nextCycle, none⟩ := by
  cases h : b.scheduler.hasWork <;> simp [rearm, h]

/-! ## Completions -/

theorem handleFinished_of_free {b : Broker} {w : WorkerId} (h : b.pool.holds? w = none)
    (task : TaskKey) (started : Time) : b.handleFinished w task started =
      ⟨b, some (if w < b.pool.size then .nothingHeld w else .unknownWorker w)⟩ := by
  simp only [handleFinished, Pool.release_of_holds?_none h]

theorem handleFinished_of_other {b : Broker} {w : WorkerId} {held task : TaskKey}
    (h : b.pool.holds? w = some held) (hne : held ≠ task) (started : Time) :
    b.handleFinished w task started = ⟨b.free w, some (.otherTaskHeld w task held)⟩ := by
  simp only [handleFinished, Pool.release_of_holds? h, hne, ne_eq, not_false_eq_true, if_true]
  rfl

theorem handleFinished_of_held {b : Broker} {w : WorkerId} {task : TaskKey}
    (h : b.pool.holds? w = some task) (he : b.scheduler.isExecuted task = false) (started : Time) :
    b.handleFinished w task started = ⟨b.complete ⟨started, task, w⟩, none⟩ := by
  simp only [handleFinished, Pool.release_of_holds? h, ne_eq, not_true_eq_false, if_false,
    Scheduler.notify_of_unexecuted he]
  rfl

theorem handleFinished_of_executed {b : Broker} {w : WorkerId} {task : TaskKey}
    (h : b.pool.holds? w = some task) (he : b.scheduler.isExecuted task = true) (started : Time) :
    b.handleFinished w task started =
      ⟨b.free w, some (.alreadyExecuted (b.scheduler.graph.id task))⟩ := by
  simp only [handleFinished, Pool.release_of_holds? h, ne_eq, not_true_eq_false, if_false,
    Scheduler.notify_of_executed he]
  rfl

/-- A completion is taken, or frees the worker at most. -/
theorem handleFinished_cases (b : Broker) (w : WorkerId) (task : TaskKey) (started : Time) :
    (b.handleFinished w task started).broker = b ∨
    (b.handleFinished w task started).broker = b.free w ∨
    (b.handleFinished w task started).broker = b.complete ⟨started, task, w⟩ := by
  cases hw : b.pool.holds? w with
  | none =>
    rw [handleFinished_of_free hw]
    exact Or.inl rfl
  | some held =>
    by_cases hne : held = task
    · subst hne
      cases hx : b.scheduler.isExecuted held with
      | false =>
        rw [handleFinished_of_held hw hx]
        exact Or.inr (Or.inr rfl)
      | true =>
        rw [handleFinished_of_executed hw hx]
        exact Or.inr (Or.inl rfl)
    · rw [handleFinished_of_other hw hne]
      exact Or.inr (Or.inl rfl)

/-! ## The end -/

theorem handleEnd_eq (b : Broker) : b.handleEnd =
    if b.scheduler.hasWork then ⟨b, some (.stalled b.clock b.scheduler.remaining)⟩
    else ⟨b.terminate, none⟩ := rfl

end Broker

end Makespan
