import Makespan.Proofs.Broker.Provisioning
import Makespan.Proofs.Graph.Derived

/-! Whole runs. A run passes through provisioning into a steady state, in which its timer and the
completions of all unfinished assignments are pending. It goes on until the work is done, unless no
worker can be used or the tasks that remain wait for each other. -/

namespace Makespan.Broker

/-- What came out of a run, once it has ended. -/
def Progress.result? : Progress → Option (Except Error Report)
  | .running _ => none
  | .ended result => some result

/-- The trace of a run so far, unless the run has failed. -/
def Progress.trace? : Progress → Option (Array TraceEntry)
  | .running b => some b.trace
  | .ended (.ok r) => some r.trace
  | .ended (.error _) => none

theorem Progress.result?_eq_some_iff {p : Progress} {result : Except Error Report} :
    p.result? = some result ↔ p = .ended result := by
  cases p <;> simp [result?]

/-- A run after at most so many events. -/
def progress : Nat → Broker → Progress
  | 0, b => .running b
  | n + 1, b =>
    match b.advance with
    | .ended result => .ended result
    | .running b => progress n b

theorem runFor_eq (n : Nat) (b : Broker) : b.runFor n = (b.progress n).result? := by
  induction n generalizing b with
  | zero => rfl
  | succ n ih =>
    unfold runFor progress
    cases b.advance with
    | ended result => rfl
    | running c => exact ih c

theorem progress_of_running {b c : Broker} (h : b.advance = .running c) (n : Nat) :
    b.progress (n + 1) = c.progress n := by
  rw [progress, h]

theorem progress_of_ended {b : Broker} {result : Except Error Report}
    (h : b.advance = .ended result) (n : Nat) : b.progress (n + 1) = .ended result := by
  rw [progress, h]

/-- A run goes on from where it stands. -/
theorem progress_add {b c : Broker} {m : Nat} (h : b.progress m = .running c) (n : Nat) :
    b.progress (m + n) = c.progress n := by
  induction m generalizing b with
  | zero =>
    obtain rfl := Progress.running.inj h
    rw [Nat.zero_add]
  | succ m ih =>
    rw [Nat.succ_add]
    cases ha : b.advance with
    | ended result => rw [progress_of_ended ha] at h; cases h
    | running d =>
      rw [progress_of_running ha] at h ⊢
      exact ih h

/-- Once a run has ended, more events change nothing. -/
theorem progress_add_of_ended {b : Broker} {m : Nat} {result : Except Error Report}
    (h : b.progress m = .ended result) (n : Nat) : b.progress (m + n) = .ended result := by
  induction m generalizing b with
  | zero => cases h
  | succ m ih =>
    rw [Nat.succ_add]
    cases ha : b.advance with
    | ended result' =>
      rw [progress_of_ended ha] at h ⊢
      exact h
    | running d =>
      rw [progress_of_running ha] at h ⊢
      exact ih h

/-- From where a run has stood it comes to the same end. -/
theorem progress_rest {b c : Broker} {m n : Nat} {result : Except Error Report}
    (h : b.progress m = .running c) (hn : b.progress n = .ended result) :
    c.progress n = .ended result := by
  rw [← progress_add h, Nat.add_comm]
  exact progress_add_of_ended hn m

/-! ## One event -/

/-- How a run goes on after an event was handled. -/
def settled : Outcome → Progress
  | ⟨_, some e⟩ => .ended (.error e)
  | ⟨b, none⟩ => b.settle

theorem advance_of_next {b : Broker} {time : Time} {event : Event} {rest : List (Time × Event)}
    (hp : b.events.pending = (time, event) :: rest) :
    b.advance = settled ({ b with clock := time, events := ⟨rest⟩ }.step event) := by
  unfold advance
  rw [EventQueue.pop?_of_pending hp]
  rfl

/-- A run goes on if its next event was handled without an error; the end may have been scheduled
since. -/
theorem exists_step_of_advance {b d : Broker} (h : b.advance = .running d) :
    ∃ time event rest c, ({ b with clock := time, events := ⟨rest⟩ } : Broker).step event = ⟨c, none⟩ ∧
      (d = c ∨ d = c.schedule c.clock .endOfSimulation) := by
  cases hp : b.events.pending with
  | nil =>
    unfold advance EventQueue.pop? at h
    rw [hp] at h
    cases h
  | cons e rest =>
    rw [advance_of_next hp] at h
    cases ho : ({ b with clock := e.1, events := ⟨rest⟩ } : Broker).step e.2 with
    | mk c error? =>
      rw [ho] at h
      cases error? with
      | some e => cases h
      | none =>
        refine ⟨e.1, e.2, rest, c, ho, ?_⟩
        have hc : c.settle = .running d := h
        unfold settle at hc
        split at hc
        · cases hc
        · split at hc
          · exact Or.inr (Progress.running.inj hc).symm
          · exact Or.inl (Progress.running.inj hc).symm

theorem settle_of_pending {b : Broker} (h : b.phase ≠ .terminated) (hp : b.events.pending ≠ []) :
    b.settle = .running b := by
  have he : b.events.isEmpty = false := by simpa [EventQueue.isEmpty] using hp
  simp [settle, h, he]

theorem settle_of_done {b : Broker} (h : b.phase ≠ .terminated) (hp : b.events.pending = []) :
    b.settle = .running (b.schedule b.clock .endOfSimulation) := by
  have he : b.events.isEmpty = true := by simpa [EventQueue.isEmpty] using hp
  simp [settle, h, he]

theorem settle_terminate (b : Broker) : b.terminate.settle = .ended (.ok
    { workflow := b.label, policy := b.scheduler.policy, makespan := b.clock
      lastCompletion := b.lastCompletion, executed := b.executed
      trace := b.terminate.trace }) := rfl

/-! ## The steady state -/

/-- A broker between two events while it schedules. -/
structure Steady (created : WorkerId → Bool) (b : Broker) (log : List Assignment)
    (timer : Time × Event) : Prop where
  flight : InFlight created b log [timer]
  timer_cases : timer.2 = .nextCycle ∨
    timer.2 = .endOfSimulation ∧ b.scheduler.hasWork = false
  timely : b.Timely log
  ticks : Along (b.plan created).Allows b.trace.toList

/-- A broker in the course of a cycle, whose timer has just gone off. -/
structure InCycle (created : WorkerId → Bool) (b : Broker) (log : List Assignment) : Prop where
  flight : InFlight created b log []
  timely : b.Timely log
  ticks : Along (b.plan created).Allows b.trace.toList
  merged : b.scheduler.arrivals = []

/-- A broker with work left that nobody does and nobody can do. -/
structure Stuck (created : WorkerId → Bool) (b : Broker) (log : List Assignment) : Prop where
  cycle : InCycle created b log
  work : b.scheduler.hasWork = true
  idle : b.pool.busy = 0
  none_ready : b.scheduler.queue = []

/-- Where a run with the initial broker `b₀` can stand. -/
inductive Course (created : WorkerId → Bool) (b₀ : Broker) : Progress → Prop
  | provisioning {b : Broker} {n : Nat} (setup : SameSetup b₀ b) (lt : n < b.pool.size)
      (h : Provisioning created b n) : Course created b₀ (.running b)
  | refused (none_created : ∀ w < b₀.pool.size, created w = false) :
      Course created b₀ (.ended (.error .noUsableWorkers))
  | steady {b : Broker} {log : List Assignment} {timer : Time × Event} (setup : SameSetup b₀ b)
      (some_created : ∃ w < b₀.pool.size, created w = true) (h : Steady created b log timer) :
      Course created b₀ (.running b)
  | stalled {b : Broker} {log : List Assignment} (setup : SameSetup b₀ b)
      (some_created : ∃ w < b₀.pool.size, created w = true) (h : Stuck created b log) :
      Course created b₀ (.ended (.error (.stalled b.clock b.scheduler.remaining)))
  | finished {b : Broker} {log : List Assignment} {r : Report} (setup : SameSetup b₀ b)
      (some_created : ∃ w < b₀.pool.size, created w = true) (h : b.Accounted log)
      (done : b.scheduler.hasWork = false) (ticks : Along (b.plan created).Allows b.trace.toList)
      (executed : r.executed = b.executed) (trace : r.trace = b.trace) :
      Course created b₀ (.ended (.ok r))

variable {created : WorkerId → Bool} {b b₀ : Broker} {log : List Assignment}

namespace InCycle

theorem beginCycle {time : Time} {rest : List (Time × Event)}
    (h : Steady created b log (time, .nextCycle))
    (hp : b.events.pending = (time, .nextCycle) :: rest) :
    InCycle created { b with clock := time, events := ⟨rest⟩ }.beginCycle log := by
  let c : Broker := { b with clock := time, events := ⟨rest⟩ }
  have hf : InFlight created c log [] := h.flight.at_timer hp
  have ht : c.Timely log := h.timely.at_next hp
  have hplan : c.beginCycle.plan created = b.plan created :=
    ((SameSetup.at_event b _ _).trans (.beginCycle c)).plan created
  have hlate : ∀ a ∈ c.unfinished log, c.clock.rank < (c.due a).rank := by
    intro a ha
    have hm : c.notice a ∈ rest :=
      hf.pending.mem_iff.mpr (List.mem_map_of_mem ha)
    have hord := h.timely.ordered
    rw [hp, List.pairwise_cons] at hord
    exact (hord.1 _ hm).2 rfl
  exact
    { flight := hf.beginCycle
      timely := ht.beginCycle
      ticks := by
        rw [hplan]
        exact along_record h.ticks (hf.tick ht hlate)
      merged := rfl }

theorem no_tick (h : InCycle created b log) : ∀ e ∈ b.events.pending, e.2 ≠ .nextCycle := by
  intro e he
  obtain ⟨a, -, rfl⟩ := List.mem_map.mp (h.flight.pending.mem_iff.mp he)
  exact fun hc => by cases hc

theorem assign (h : InCycle created b log) {task : TaskKey} {rest : List TaskKey}
    (hq : b.scheduler.queue = task :: rest) {w : WorkerId} (hw : b.CanTake w) :
    InCycle created (b.assign ⟨b.clock, task, w⟩) (log ++ [⟨b.clock, task, w⟩]) where
  flight := h.flight.assign hq hw
  timely := h.timely.assign h.no_tick (h.flight.accounted.head_unexecuted hq) w
  ticks := by
    rw [(SameSetup.assign b _).plan]
    exact along_record h.ticks trivial
  merged := h.merged

/-- Idle workers are served one by one: what each assignment keeps holds at the end. -/
theorem serve (h : InCycle created b log) {ws : List WorkerId} (hn : ws.Nodup)
    (hws : ∀ w ∈ ws, b.CanTake w) {I : Broker → List Assignment → Prop}
    (hI : ∀ c log task rest w, InCycle created c log → I c log → c.scheduler.queue = task :: rest →
      c.CanTake w → I (c.assign ⟨c.clock, task, w⟩) (log ++ [⟨c.clock, task, w⟩]))
    (h₀ : I b log) : ∃ c log', b.dispatchAll ws = ⟨c, none⟩ ∧ InCycle created c log' ∧
      SameSetup b c ∧ I c log' := by
  obtain ⟨c, hc, log', hin, hsetup, hIc⟩ := dispatchAll_induct
    (I := fun c => ∃ log, InCycle created c log ∧ SameSetup b c ∧ I c log)
    (fun d task rest w ⟨_, hd, hs, hId⟩ hq hw =>
      ⟨_, hd.assign hq hw, hs.trans (.assign d _), hI d _ task rest w hd hId hq hw⟩)
    hn hws ⟨log, h, .refl b, h₀⟩
  exact ⟨c, log', hc, hin, hsetup, hIc⟩

theorem steady_of_schedule (h : InCycle created b log) {time : Time} (ht : time.NonNegative)
    (hle : b.clock.rank ≤ time.rank) {event : Event}
    (he : event = .nextCycle ∨ event = .endOfSimulation ∧ b.scheduler.hasWork = false) :
    Steady created (b.schedule time event) log (time, event) where
  flight := h.flight.schedule time event
  timer_cases := he
  timely := h.timely.schedule h.no_tick ht hle event
  ticks := by
    rw [(SameSetup.schedule b time event).plan]
    exact h.ticks

/-- How a run goes on after a cycle: it waits for its end, cannot go on, or waits for the next tick. -/
theorem settled_rearm (h : InCycle created b log) : settled b.rearm =
    if b.scheduler.hasWork = false then .running (b.schedule b.clock .endOfSimulation)
    else if b.pool.busy = 0 ∧ b.scheduler.queue = [] then
      .ended (.error (.stalled b.clock b.scheduler.remaining))
    else .running (b.schedule (b.clock + b.cycleDelay) .nextCycle) := by
  have hrunning : b.phase ≠ .terminated := by rw [h.flight.phase]; simp
  rw [rearm_eq]
  by_cases hw : b.scheduler.hasWork = false
  · have hnone : b.events.pending = [] := (h.flight.pending_of_no_work hw).eq_nil
    rw [if_pos hw, if_pos hw]
    exact settle_of_done hrunning hnone
  · rw [if_neg hw, if_neg hw]
    by_cases hs : b.pool.busy = 0 ∧ b.scheduler.queue = []
    · rw [if_pos hs, if_pos hs]
      rfl
    · rw [if_neg hs, if_neg hs]
      exact settle_of_pending (b := b.schedule _ _) hrunning (EventQueue.place_ne_nil _ _ _)

theorem steady_of_done (h : InCycle created b log) (hw : b.scheduler.hasWork = false) :
    Steady created (b.schedule b.clock .endOfSimulation) log (b.clock, .endOfSimulation) :=
  h.steady_of_schedule h.timely.clock le_rfl (Or.inr ⟨rfl, hw⟩)

theorem steady_of_rearmed (h : InCycle created b log) :
    Steady created (b.schedule (b.clock + b.cycleDelay) .nextCycle) log
      (b.clock + b.cycleDelay, .nextCycle) := by
  obtain ⟨hn, hle⟩ := h.timely.clock.add h.timely.paced.delay
  exact h.steady_of_schedule hn hle (Or.inl rfl)

/-- The end of a cycle. -/
theorem rearm (h : InCycle created b log) (setup : SameSetup b₀ b)
    (hc : ∃ w < b₀.pool.size, created w = true) : Course created b₀ (settled b.rearm) := by
  rw [h.settled_rearm]
  by_cases hw : b.scheduler.hasWork = false
  · rw [if_pos hw]
    exact .steady (setup.trans (.schedule b _ _)) hc (h.steady_of_done hw)
  · rw [if_neg hw]
    by_cases hs : b.pool.busy = 0 ∧ b.scheduler.queue = []
    · rw [if_pos hs]
      exact .stalled setup hc ⟨h, by simpa using hw, hs.1, hs.2⟩
    · rw [if_neg hs]
      exact .steady (setup.trans (.schedule b _ _)) hc h.steady_of_rearmed

end InCycle

namespace Steady

/-- At a tick the timer is to be set again, once the idle workers are served. -/
theorem step_of_served {time : Time} {rest : List (Time × Event)}
    (h : Steady created b log (time, .nextCycle)) {c : Broker}
    (hc : { b with clock := time, events := ⟨rest⟩ }.beginCycle.dispatchAll b.pool.idle =
      ⟨c, none⟩) : { b with clock := time, events := ⟨rest⟩ }.step .nextCycle = c.rearm := by
  have hcycle := handleCycle_of_dispatchAll (b := { b with clock := time, events := ⟨rest⟩ }) hc
  rw [← hcycle, step_nextCycle (b := { b with clock := time, events := ⟨rest⟩ }) h.flight.phase]

theorem advance_of_served {time : Time} {rest : List (Time × Event)}
    (h : Steady created b log (time, .nextCycle))
    (hp : b.events.pending = (time, .nextCycle) :: rest) {c : Broker}
    (hc : { b with clock := time, events := ⟨rest⟩ }.beginCycle.dispatchAll b.pool.idle =
      ⟨c, none⟩) : b.advance = settled c.rearm := by
  rw [advance_of_next hp, h.step_of_served hc]

/-- A tick serves the idle workers one by one: what each assignment keeps holds when the timer is to
be set again. -/
theorem tick_induct {time : Time} {rest : List (Time × Event)}
    (h : Steady created b log (time, .nextCycle))
    (hp : b.events.pending = (time, .nextCycle) :: rest) {I : Broker → List Assignment → Prop}
    (hI : ∀ c log task rest w, InCycle created c log → I c log → c.scheduler.queue = task :: rest →
      c.CanTake w → I (c.assign ⟨c.clock, task, w⟩) (log ++ [⟨c.clock, task, w⟩]))
    (h₀ : I { b with clock := time, events := ⟨rest⟩ }.beginCycle log) :
    ∃ c log', b.advance = settled c.rearm ∧ InCycle created c log' ∧ SameSetup b c ∧ I c log' := by
  have hnumbered := h.flight.accounted.pool.numbered
  obtain ⟨c, log', hc, hin, hsetup, hIc⟩ := (InCycle.beginCycle h hp).serve hnumbered.idle_nodup
    (fun w hw => hnumbered.mem_idle_iff.mp hw) hI h₀
  exact ⟨c, log', h.advance_of_served hp hc, hin,
    ((SameSetup.at_event b time ⟨rest⟩).trans (.beginCycle _)).trans hsetup, hIc⟩

theorem advance_tick {time : Time} {rest : List (Time × Event)}
    (h : Steady created b log (time, .nextCycle))
    (hp : b.events.pending = (time, .nextCycle) :: rest) (setup : SameSetup b₀ b)
    (hc : ∃ w < b₀.pool.size, created w = true) : Course created b₀ b.advance := by
  obtain ⟨c, log', hadv, hin, hsetup, -⟩ := h.tick_induct hp (I := fun _ _ => True)
    (fun _ _ _ _ _ _ _ _ _ => trivial) trivial
  rw [hadv]
  exact hin.rearm (setup.trans hsetup) hc

/-- A completion leaves the timer alone. -/
theorem complete {timer : Time × Event} (h : Steady created b log timer) {a : Assignment}
    (ha : a ∈ b.unfinished log) {rest : List (Time × Event)}
    (hp : b.events.pending = b.notice a :: rest) :
    Steady created ({ b with clock := b.due a, events := ⟨rest⟩ }.complete a) log timer := by
  let c : Broker := { b with clock := b.due a, events := ⟨rest⟩ }
  have hsetup : SameSetup b (c.complete a) := (SameSetup.at_event b _ _).trans (.complete c a)
  have htimer : timer.2 = .nextCycle := h.timer_cases.resolve_right fun ⟨_, hw⟩ => by
    rw [h.flight.accounted.hasWork ha] at hw
    cases hw
  exact
    { flight := h.flight.complete ha hp
      timer_cases := Or.inl htimer
      timely := (h.timely.at_next hp).complete (h.flight.accounted.at_event _ _)
        (mem_unfinished.mp ha).1 le_rfl
      ticks := by
        rw [hsetup.plan]
        exact along_record h.ticks trivial }

theorem advance_of_completion {timer : Time × Event} (h : Steady created b log timer)
    {a : Assignment} (ha : a ∈ b.unfinished log) {rest : List (Time × Event)}
    (hp : b.events.pending = b.notice a :: rest) : b.advance =
      .running ({ b with clock := b.due a, events := ⟨rest⟩ }.complete a) := by
  let c : Broker := { b with clock := b.due a, events := ⟨rest⟩ }
  have hstep : c.step (.taskFinished a.worker a.task a.started) = ⟨c.complete a, none⟩ := by
    rw [step_taskFinished (b := c) h.flight.phase]
    exact handleFinished_of_held (b := c) (h.flight.held a ha) (mem_unfinished.mp ha).2 a.started
  have hflight := (h.complete ha hp).flight
  have hpending : (c.complete a).events.pending ≠ [] := by
    intro hn
    have hm : timer ∈ (c.complete a).events.pending := hflight.pending.mem_iff.mpr (by simp)
    rw [hn] at hm
    cases hm
  rw [advance_of_next hp, hstep]
  exact settle_of_pending (by rw [hflight.phase]; simp) hpending

theorem advance_completion {timer : Time × Event} (h : Steady created b log timer)
    {a : Assignment} (ha : a ∈ b.unfinished log) {rest : List (Time × Event)}
    (hp : b.events.pending = b.notice a :: rest) (setup : SameSetup b₀ b)
    (hc : ∃ w < b₀.pool.size, created w = true) : Course created b₀ b.advance := by
  rw [h.advance_of_completion ha hp]
  exact .steady (setup.trans ((SameSetup.at_event b _ _).trans (.complete _ a))) hc
    (h.complete ha hp)

theorem done_of_end {time : Time} (h : Steady created b log (time, .endOfSimulation)) :
    b.scheduler.hasWork = false := (h.timer_cases.resolve_left (by simp)).2

theorem advance_of_end {time : Time} {rest : List (Time × Event)}
    (h : Steady created b log (time, .endOfSimulation))
    (hp : b.events.pending = (time, .endOfSimulation) :: rest) : b.advance =
      { b with clock := time, events := ⟨rest⟩ }.terminate.settle := by
  let c : Broker := { b with clock := time, events := ⟨rest⟩ }
  have hstep : c.step .endOfSimulation = ⟨c.terminate, none⟩ := by
    rw [step_endOfSimulation (b := c) h.flight.phase, handleEnd_eq, if_neg]
    rw [show c.scheduler.hasWork = false from h.done_of_end]
    simp
  rw [advance_of_next hp, hstep]
  rfl

theorem advance_end {time : Time} {rest : List (Time × Event)}
    (h : Steady created b log (time, .endOfSimulation))
    (hp : b.events.pending = (time, .endOfSimulation) :: rest) (setup : SameSetup b₀ b)
    (hc : ∃ w < b₀.pool.size, created w = true) : Course created b₀ b.advance := by
  let c : Broker := { b with clock := time, events := ⟨rest⟩ }
  have hacc : c.Accounted log := h.flight.accounted.at_event time ⟨rest⟩
  have hsetup : SameSetup b c.terminate := (SameSetup.at_event b _ _).trans (.terminate c)
  rw [h.advance_of_end hp, settle_terminate]
  refine .finished (setup.trans hsetup) hc (hacc.terminate h.done_of_end) h.done_of_end ?_ rfl rfl
  rw [hsetup.plan]
  exact along_record h.ticks trivial

/-- The tick that finds no work left is the last: nothing is ready at it, and the end comes next. -/
theorem advance_of_done {time : Time} {rest : List (Time × Event)}
    (h : Steady created b log (time, .nextCycle))
    (hp : b.events.pending = (time, .nextCycle) :: rest) (hw : b.scheduler.hasWork = false) :
    ∃ c r, b.advance = .running c ∧ c.advance = .ended (.ok r) ∧ r.makespan = time ∧
      r.executed = b.executed ∧ r.lastCompletion = b.lastCompletion ∧ r.trace.toList =
        b.trace.toList ++ [.cycle time [] b.pool.idle, .finished time b.executed] := by
  let c : Broker := { b with clock := time, events := ⟨rest⟩ }
  have hacc := h.flight.accounted
  have hempty : c.scheduler.cycle.queue = [] := by
    refine List.eq_nil_iff_forall_not_mem.mpr fun k hk => ?_
    obtain ⟨⟨hlt, -⟩, hnew⟩ := (hacc.scheduler.cycle.mem_queue_iff rfl).mp hk
    obtain ⟨a, ha, rfl⟩ := hacc.executed_logged k (hacc.executed_of_done hw hlt)
    exact hnew (List.mem_map_of_mem ha)
  have hin := InCycle.beginCycle h hp
  have hend := hin.steady_of_done hw
  have hadv : b.advance = .running (c.beginCycle.schedule time .endOfSimulation) := by
    rw [h.advance_of_served hp (dispatchAll_of_empty hempty _), hin.settled_rearm]
    exact if_pos hw
  have hpending := List.perm_singleton.mp (hend.flight.pending_of_no_work hw)
  have hlast := hend.advance_of_end hpending
  rw [settle_terminate] at hlast
  refine ⟨_, _, hadv, hlast, rfl, rfl, rfl, ?_⟩
  show ((b.trace.push (.cycle time (c.scheduler.cycle.queue.map _) b.pool.idle)).push _).toList = _
  rw [hempty, Array.toList_push, Array.toList_push, List.append_assoc]
  rfl

/-- There is always an event to come. -/
theorem exists_next {timer : Time × Event} (h : Steady created b log timer) :
    ∃ e rest, b.events.pending = e :: rest ∧
      (e = timer ∨ ∃ a ∈ b.unfinished log, b.notice a = e) := by
  have hm : timer ∈ b.events.pending := h.flight.pending.mem_iff.mpr (by simp)
  obtain ⟨e, rest, hp⟩ := List.exists_cons_of_ne_nil (List.ne_nil_of_mem hm)
  exact ⟨e, rest, hp, (h.flight.next_cases hp).imp_left List.mem_singleton.mp⟩

theorem advance {timer : Time × Event} (h : Steady created b log timer) (setup : SameSetup b₀ b)
    (hc : ∃ w < b₀.pool.size, created w = true) : Course created b₀ b.advance := by
  obtain ⟨e, rest, hp, rfl | ⟨a, ha, rfl⟩⟩ := h.exists_next
  · obtain ⟨time, event⟩ := e
    rcases h.timer_cases with rfl | ⟨rfl, -⟩
    · exact h.advance_tick hp setup hc
    · exact h.advance_end hp setup hc
  · exact h.advance_completion ha hp setup hc

end Steady

/-! ## Provisioning -/

/-- One answer after the other is taken; the last one decides. -/
theorem Provisioning.advance_eq {n : Nat} (h : Provisioning created b n) (hn : n < b.pool.size) :
    b.advance =
      if n + 1 < b.pool.size then .running (b.answerNext created n)
      else if (b.answerNext created n).pool.usable = 0 then .ended (.error .noUsableWorkers)
      else .running (b.answerNext created n).beginScheduling := by
  let c : Broker := { b with clock := .zero, events := ⟨answersFrom created (n + 1) b.pool.size⟩ }
  have hd : Provisioning created (b.answerNext created n) (n + 1) := h.answerNext hn
  have hsize : (b.answerNext created n).pool.size = b.pool.size :=
    (SameSetup.answerNext b created n).size
  have hstep : c.step (.workerCreated n (created n)) =
      if n + 1 < b.pool.size then ⟨b.answerNext created n, none⟩
      else if (b.answerNext created n).pool.usable = 0 then
        ⟨b.answerNext created n, some .noUsableWorkers⟩
      else ⟨(b.answerNext created n).beginScheduling, none⟩ := by
    simp only [step, show c.phase = .provisioning from h.phase]
    rw [handleCreated_of_lt (b := c) hn]
    rw [show c.acknowledged = n from h.acknowledged]
    rfl
  have hnext : b.advance = settled (c.step (.workerCreated n (created n))) :=
    advance_of_next (h.next hn)
  rw [hnext, hstep]
  by_cases hmore : n + 1 < b.pool.size
  · have hpending := hd.next (hsize ▸ hmore)
    rw [if_pos hmore, if_pos hmore]
    exact settle_of_pending (by rw [hd.phase]; simp) (by rw [hpending]; simp)
  · rw [if_neg hmore, if_neg hmore]
    by_cases hu : (b.answerNext created n).pool.usable = 0
    · rw [if_pos hu, if_pos hu]
      rfl
    · rw [if_neg hu, if_neg hu]
      refine settle_of_pending ?_ (EventQueue.place_ne_nil _ _ _)
      show Phase.scheduling ≠ .terminated
      simp

/-- The last answer leads into the steady state. -/
theorem Provisioning.steady (h : Provisioning created b b.pool.size) :
    Steady created b.beginScheduling [] (.zero, .nextCycle) := by
  obtain ⟨hf, ht⟩ := h.beginScheduling
  refine ⟨hf, Or.inl rfl, ht, ?_⟩
  rw [(SameSetup.beginScheduling b).plan]
  exact h.ticks

theorem Provisioning.advance {n : Nat} (h : Provisioning created b n) (hn : n < b.pool.size)
    (setup : SameSetup b₀ b) : Course created b₀ b.advance := by
  let d : Broker := b.answerNext created n
  have hd : Provisioning created d (n + 1) := h.answerNext hn
  have hsetup : SameSetup b₀ d := setup.trans (.answerNext b created n)
  rw [h.advance_eq hn]
  by_cases hmore : n + 1 < b.pool.size
  · rw [if_pos hmore]
    refine .provisioning hsetup ?_ hd
    rwa [hsetup.size, ← setup.size]
  · have hsize : d.pool.size = n + 1 := by
      rw [hsetup.size, ← setup.size]
      omega
    have hd : Provisioning created d d.pool.size := hsize ▸ hd
    rw [if_neg hmore]
    by_cases hu : d.pool.usable = 0
    · rw [if_pos hu]
      refine .refused ?_
      rw [← hsetup.size]
      exact hd.usable_eq_zero_iff.mp hu
    · rw [if_neg hu]
      have hcreated : ∃ w < b₀.pool.size, created w = true := by
        rw [← hsetup.size]
        by_contra hno
        refine hu (hd.usable_eq_zero_iff.mpr fun w hw => ?_)
        by_contra hc
        exact hno ⟨w, hw, by simpa using hc⟩
      exact .steady (hsetup.trans (.beginScheduling d)) hcreated hd.steady

/-! ## The whole run -/

theorem Course.advance (h : Course created b₀ (.running b)) : Course created b₀ b.advance := by
  cases h with
  | provisioning setup lt h => exact h.advance lt setup
  | steady setup some_created h => exact h.advance setup some_created

/-- A run on course stays on course. -/
theorem Course.progress (h : Course created b₀ (.running b)) (n : Nat) :
    Course created b₀ (b.progress n) := by
  induction n generalizing b with
  | zero => exact h
  | succ n ih =>
    have ha := h.advance
    unfold Broker.progress
    cases hb : b.advance with
    | ended result => rwa [hb] at ha
    | running c => exact ih (hb ▸ ha)

theorem Course.steady_of_scheduling (h : Course created b₀ (.running b))
    (hp : b.phase = .scheduling) : SameSetup b₀ b ∧ ∃ log timer, Steady created b log timer := by
  cases h with
  | provisioning setup lt h =>
    rw [h.phase] at hp
    cases hp
  | steady setup some_created h => exact ⟨setup, _, _, h⟩

/-- Nothing keeps a broker from the tasks that no cycle leads to. -/
theorem Stuck.executed_of_clear (h : Stuck created b log) {k : TaskKey}
    (hk : k < b.scheduler.graph.size) (hclear : ¬ b.scheduler.graph.Tangled k) :
    b.scheduler.isExecuted k = true := by
  have hacc := h.cycle.flight.accounted
  obtain ⟨number, hn⟩ := hacc.scheduler.graph.downward_mirrored.exists_number
  induction hm : number k using Nat.strong_induction_on generalizing k with
  | _ m ih =>
    subst hm
    have hpar : ∀ p ∈ b.scheduler.graph.parents k, b.scheduler.isExecuted p = true :=
      fun p hp => ih _ (hn p k hp hclear) (hacc.scheduler.graph.parent_lt hp)
        (Graph.not_tangled_of_parent hclear hp) rfl
    have hready := (hacc.scheduler.mem_iff k).mpr ((hacc.scheduler.ready_iff k).mpr ⟨hk, hpar⟩)
    rw [h.none_ready, h.cycle.merged, List.append_nil, List.append_nil] at hready
    obtain ⟨a, ha, rfl⟩ := List.mem_map.mp hready
    exact h.cycle.flight.executed_of_idle h.idle ha

/-- Tasks that can be numbered along the edges never wait for each other. -/
theorem Stuck.false (h : Stuck created b log) (number : TaskKey → Nat)
    (hn : ∀ k, ∀ p ∈ b.scheduler.graph.parents k, number p < number k) : False := by
  have hacyclic : b.scheduler.graph.Acyclic := ⟨number, fun j k hj => hn k j hj⟩
  obtain ⟨k, hk, hx⟩ := h.cycle.flight.accounted.scheduler.hasWork_iff.mp h.work
  rw [h.executed_of_clear hk (hacyclic.not_tangled k)] at hx
  cases hx

end Makespan.Broker
