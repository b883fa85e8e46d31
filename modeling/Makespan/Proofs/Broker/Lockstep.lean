import Makespan.Proofs.Broker.Renaming

/-! Two brokers in step. They have the same scheduler, clock and counters, and what one of them
knows about a worker the other knows about the worker of the same rank. Each event of one is matched
by an event of the other, which keeps them alike; so they end together or not at all. -/

namespace Makespan

variable {π : Pairing} {v w : WorkerId}

/-! ## Pools -/

/-- Nobody outside the crew holds a task. -/
def Pool.HeldBy (crew : List WorkerId) (p : Pool) : Prop := ∀ w k, p.holds? w = some k → w ∈ crew

namespace Pool.HeldBy

variable {crew : List WorkerId} {p : Pool}

theorem ofTiers (crew : List WorkerId) (tiers : List Tier) : HeldBy crew (.ofTiers tiers) := by
  intro w k hk
  rw [holds?_ofTiers] at hk
  cases hk

theorem setRunning (h : HeldBy crew p) (hw : w ∈ crew) (hlt : w < p.size)
    (running : Option TaskKey) : HeldBy crew (p.setRunning w running) := by
  intro v k hk
  rw [holds?_setRunning hlt] at hk
  split at hk
  · rename_i he
    exact he ▸ hw
  · exact h v k hk

theorem busy_eq_zero_iff (h : HeldBy crew p) : p.busy = 0 ↔ ∀ w ∈ crew, p.holds? w = none := by
  rw [Pool.busy_eq_zero_iff]
  constructor
  · exact fun hnone w _ => hnone w
  · intro hnone w
    refine Option.eq_none_iff_forall_ne_some.mpr fun k hk => ?_
    rw [hnone w (h w k hk)] at hk
    cases hk

end Pool.HeldBy

/-- Workers of one rank are equally fast and hold the same. -/
structure Pool.Alike (π : Pairing) (p q : Pool) : Prop where
  speed : ∀ {v w}, π.Peers v w → q.speed? w = p.speed? v
  held : ∀ {v w}, π.Peers v w → q.holds? w = p.holds? v
  left : p.HeldBy π.left
  right : q.HeldBy π.right

namespace Pool.Alike

variable {p q : Pool}

/-- New pools, in which nobody holds anything. -/
theorem ofTiers {tiers tiers' : List Tier}
    (hspeed : ∀ {v w}, π.Peers v w →
      (Pool.ofTiers tiers').speed? w = (Pool.ofTiers tiers).speed? v) :
    Alike π (.ofTiers tiers) (.ofTiers tiers') where
  speed := hspeed
  held _ := by rw [holds?_ofTiers, holds?_ofTiers]
  left := .ofTiers _ _
  right := .ofTiers _ _

theorem congr (h : Alike π p q) {p' q' : Pool} (hp : ∀ v, p'.speed? v = p.speed? v)
    (hq : ∀ w, q'.speed? w = q.speed? w) (hp' : ∀ v, p'.holds? v = p.holds? v)
    (hq' : ∀ w, q'.holds? w = q.holds? w) : Alike π p' q' where
  speed hvw := by rw [hp, hq, h.speed hvw]
  held hvw := by rw [hp', hq', h.held hvw]
  left v k hk := h.left v k (hp' v ▸ hk)
  right w k hk := h.right w k (hq' w ▸ hk)

theorem setRunning (h : Alike π p q) (hvw : π.Peers v w) (hv : v < p.size) (hw : w < q.size)
    (running : Option TaskKey) : Alike π (p.setRunning v running) (q.setRunning w running) where
  speed hvw' := by rw [speed?_setRunning, speed?_setRunning, h.speed hvw']
  held hvw' := by
    rw [holds?_setRunning hv, holds?_setRunning hw, h.held hvw']
    simp only [hvw.eq_iff hvw']
  left := h.left.setRunning hvw.left hv running
  right := h.right.setRunning hvw.right hw running

theorem busy_iff (h : Alike π p q) : q.busy = 0 ↔ p.busy = 0 := by
  rw [h.left.busy_eq_zero_iff, h.right.busy_eq_zero_iff]
  constructor
  · intro hnone v hv
    obtain ⟨w, hvw⟩ := Pairing.exists_peer_of_left hv
    rw [← h.held hvw, hnone w hvw.right]
  · intro hnone w hw
    obtain ⟨v, hvw⟩ := Pairing.exists_peer_of_right hw
    rw [h.held hvw, hnone v hvw.left]

/-- Both find the same ranks idle. -/
theorem idle (h : Alike π p q) (hp : p.idle = π.left.filter fun v => (p.holds? v).isNone)
    (hq : q.idle = π.right.filter fun w => (q.holds? w).isNone) :
    List.Forall₂ π.Peers p.idle q.idle := by
  rw [hp, hq]
  refine List.rel_filter (fun v w hvw => ?_) π.forall₂_peers
  simp only [h.held hvw]

end Pool.Alike

/-! ## Events -/

/-- Events that are the same but for the name of a worker. -/
inductive Event.Alike (π : Pairing) : Event → Event → Prop
  | nextCycle : Alike π .nextCycle .nextCycle
  | taskFinished {v w : WorkerId} (peers : π.Peers v w) (task : TaskKey) (started : Time) :
      Alike π (.taskFinished v task started) (.taskFinished w task started)
  | endOfSimulation : Alike π .endOfSimulation .endOfSimulation

/-- Events of one time. -/
def Event.AlikeAt (π : Pairing) (x y : Time × Event) : Prop := y.1 = x.1 ∧ Event.Alike π x.2 y.2

/-- The place of an event is a matter of times alone. -/
theorem EventQueue.place_alike {l m : List (Time × Event)}
    (h : List.Forall₂ (Event.AlikeAt π) l m) (time : Time) {x y : Event} (hxy : Event.Alike π x y) :
    List.Forall₂ (Event.AlikeAt π) (place time x l) (place time y m) := by
  induction h with
  | nil => exact .cons ⟨rfl, hxy⟩ .nil
  | cons he hl ih =>
    unfold place
    rw [he.1]
    split
    · exact .cons he ih
    · exact .cons ⟨rfl, hxy⟩ (.cons he hl)

namespace Broker

/-! ## Brokers -/

structure Alike (π : Pairing) (b c : Broker) : Prop where
  label : c.label = b.label
  clock : c.clock = b.clock
  scheduler : c.scheduler = b.scheduler
  delay : c.cycleDelay = b.cycleDelay
  executed : c.executed = b.executed
  lastCompletion : c.lastCompletion = b.lastCompletion
  pool : Pool.Alike π b.pool c.pool
  pending : List.Forall₂ (Event.AlikeAt π) b.events.pending c.events.pending
  trace : renamed π.right.idxOf c.trace = renamed π.left.idxOf b.trace

/-- How two runs in step stand. -/
inductive Progress.Alike (π : Pairing) : Progress → Progress → Prop
  | running {b c : Broker} (h : Broker.Alike π b c) (left : b.phase = .scheduling)
      (right : c.phase = .scheduling) : Alike π (.running b) (.running c)
  | finished {r r' : Report} (h : r.SameUnder π.left.idxOf π.right.idxOf r') :
      Alike π (.ended (.ok r)) (.ended (.ok r'))
  | failed (e : Error) : Alike π (.ended (.error e)) (.ended (.error e))

/-- Runs in step end at the same event. -/
theorem Progress.Alike.ended_iff {p q : Progress} (h : Progress.Alike π p q) :
    (∃ result, p = .ended result) ↔ ∃ result, q = .ended result := by
  cases h <;> simp

theorem Progress.Alike.of_ok {q : Progress} {r : Report}
    (h : Progress.Alike π (.ended (.ok r)) q) :
    ∃ r', q = .ended (.ok r') ∧ r.SameUnder π.left.idxOf π.right.idxOf r' := by
  cases h with
  | finished hsame => exact ⟨_, rfl, hsame⟩

namespace Alike

variable {b c : Broker}

/-! ## How two runs get in step -/

/-- New brokers for the same work, whose workers differ in their ids alone. -/
theorem new (label : String) (s : Scheduler) {tiers tiers' : List Tier} (delay : Time)
    (hspeed : ∀ {v w}, π.Peers v w →
      (Pool.ofTiers tiers').speed? w = (Pool.ofTiers tiers).speed? v) :
    Alike π (.new label s tiers delay) (.new label s tiers' delay) where
  label := rfl
  clock := rfl
  scheduler := rfl
  delay := rfl
  executed := rfl
  lastCompletion := rfl
  pool := .ofTiers hspeed
  pending := .nil
  trace := rfl

/-- Answers to creation requests make no difference. -/
theorem opened {b₀ c₀ : Broker} (h : Alike π b₀ c₀) (hb : Opened b₀ b) (hc : Opened c₀ c) :
    Alike π b c where
  label := by rw [hb.untouched.setup.label, hc.untouched.setup.label, h.label]
  clock := by rw [hb.clock, hc.clock]
  scheduler := by rw [hb.untouched.scheduler, hc.untouched.scheduler, h.scheduler]
  delay := by rw [hb.untouched.setup.delay, hc.untouched.setup.delay, h.delay]
  executed := by rw [hb.untouched.executed, hc.untouched.executed, h.executed]
  lastCompletion := by
    rw [hb.untouched.lastCompletion, hc.untouched.lastCompletion, h.lastCompletion]
  pool := h.pool.congr hb.untouched.setup.speed hc.untouched.setup.speed hb.untouched.holds
    hc.untouched.holds
  pending := by
    rw [hb.pending, hc.pending]
    exact .cons ⟨rfl, .nextCycle⟩ .nil
  trace := by
    rw [renamed_of_answers hb.untouched.answers, renamed_of_answers hc.untouched.answers]

/-! ## What each change keeps -/

theorem due (h : Alike π b c) (hvw : π.Peers v w) (started : Time) (task : TaskKey) :
    c.due ⟨started, task, w⟩ = b.due ⟨started, task, v⟩ := by
  rw [Broker.due, Broker.due, h.scheduler, Pool.executionTime_congr (h.pool.speed hvw)]

theorem at_event (h : Alike π b c) (time : Time) {rest rest' : List (Time × Event)}
    (hrest : List.Forall₂ (Event.AlikeAt π) rest rest') :
    Alike π { b with clock := time, events := ⟨rest⟩ }
      { c with clock := time, events := ⟨rest'⟩ } :=
  { h with clock := rfl, pending := hrest }

theorem schedule (h : Alike π b c) {time time' : Time} (ht : time' = time) {x y : Event}
    (hxy : Event.Alike π x y) : Alike π (b.schedule time x) (c.schedule time' y) :=
  { h with pending := ht ▸ EventQueue.place_alike h.pending time hxy }

theorem record (h : Alike π b c) {x y : TraceEntry} (hx : x.isAnswer = false)
    (hy : y.isAnswer = false) (hxy : y.rename π.right.idxOf = x.rename π.left.idxOf) :
    Alike π (b.record x) (c.record y) :=
  { h with
    trace := by
      show renamed _ (c.trace.push y) = renamed _ (b.trace.push x)
      rw [renamed_push hx, renamed_push hy, h.trace, hxy] }

theorem beginCycle (h : Alike π b c) (hidle : List.Forall₂ π.Peers b.pool.idle c.pool.idle) :
    Alike π b.beginCycle c.beginCycle := by
  have hs : Alike π { b with scheduler := b.scheduler.cycle }
      { c with scheduler := c.scheduler.cycle } :=
    { h with scheduler := congrArg Scheduler.cycle h.scheduler }
  refine hs.record rfl rfl ?_
  rw [TraceEntry.rename, TraceEntry.rename, h.clock, h.scheduler, Pairing.map_rank_eq hidle]

theorem assign (h : Alike π b c) (hvw : π.Peers v w) (hv : v < b.pool.size) (hw : w < c.pool.size)
    (started : Time) (task : TaskKey) :
    Alike π (b.assign ⟨started, task, v⟩) (c.assign ⟨started, task, w⟩) := by
  have hpool : Alike π
      { b with
        pool := b.pool.setRunning v (some task)
        scheduler := { b.scheduler with queue := b.scheduler.queue.tail } }
      { c with
        pool := c.pool.setRunning w (some task)
        scheduler := { c.scheduler with queue := c.scheduler.queue.tail } } :=
    { h with
      pool := h.pool.setRunning hvw hv hw (some task)
      scheduler := by rw [h.scheduler] }
  refine (hpool.record ?_ ?_ ?_).schedule (h.due hvw started task) (.taskFinished hvw task started)
  · rfl
  · rfl
  · rw [TraceEntry.rename, TraceEntry.rename, h.scheduler, hvw.rank]

theorem complete (h : Alike π b c) (hvw : π.Peers v w) (hv : v < b.pool.size)
    (hw : w < c.pool.size) (task : TaskKey) (started : Time) :
    Alike π (b.complete ⟨started, task, v⟩) (c.complete ⟨started, task, w⟩) := by
  have hdone : Alike π
      { b.free v with
        scheduler := b.scheduler.finish task
        executed := b.executed + 1
        lastCompletion := b.clock }
      { c.free w with
        scheduler := c.scheduler.finish task
        executed := c.executed + 1
        lastCompletion := c.clock } :=
    { h with
      pool := h.pool.setRunning hvw hv hw none
      scheduler := by rw [h.scheduler]
      executed := by rw [h.executed]
      lastCompletion := h.clock }
  refine hdone.record rfl rfl ?_
  rw [TraceEntry.rename, TraceEntry.rename, h.clock, h.scheduler, h.executed, hvw.rank]

theorem terminate (h : Alike π b c) : Alike π b.terminate c.terminate := by
  have hend : Alike π { b with phase := .terminated, finishTime := some b.clock }
      { c with phase := .terminated, finishTime := some c.clock } := { h with clock := h.clock }
  refine hend.record rfl rfl ?_
  rw [TraceEntry.rename, TraceEntry.rename, h.clock, h.executed]

/-- Idle workers of the same ranks are given the same tasks. -/
theorem dispatchAll {vs ws : List WorkerId} (hvw : List.Forall₂ π.Peers vs ws) (hv : vs.Nodup)
    (hw : ws.Nodup) {b c : Broker} (h : Alike π b c) (hb : ∀ v ∈ vs, b.CanTake v)
    (hc : ∀ w ∈ ws, c.CanTake w) (left : b.phase = .scheduling) (right : c.phase = .scheduling) :
    ∃ b' c', b.dispatchAll vs = ⟨b', none⟩ ∧ c.dispatchAll ws = ⟨c', none⟩ ∧ Alike π b' c' ∧
      b'.phase = .scheduling ∧ c'.phase = .scheduling := by
  induction hvw generalizing b c with
  | nil => exact ⟨b, c, rfl, rfl, h, left, right⟩
  | @cons v w vs ws hvw _ ih =>
    obtain ⟨hv', hv⟩ := List.nodup_cons.mp hv
    obtain ⟨hw', hw⟩ := List.nodup_cons.mp hw
    have hbv : b.CanTake v := hb v (by simp)
    have hcw : c.CanTake w := hc w (by simp)
    cases hq : b.scheduler.queue with
    | nil =>
      have hq' : c.scheduler.queue = [] := h.scheduler ▸ hq
      exact ⟨b, c, dispatchAll_of_empty hq _, dispatchAll_of_empty hq' _, h, left, right⟩
    | cons task rest =>
      have hq' : c.scheduler.queue = task :: rest := h.scheduler ▸ hq
      have h' : Alike π (b.assign ⟨b.clock, task, v⟩) (c.assign ⟨c.clock, task, w⟩) := by
        rw [h.clock]
        exact h.assign hvw (Pool.lt_of_status? hbv.1) (Pool.lt_of_status? hcw.1) b.clock task
      rw [dispatchAll_cons hbv hq, dispatchAll_cons hcw hq']
      refine ih hv hw h' (fun v' hm => ?_) (fun w' hm => ?_) left right
      · exact (hb v' (List.mem_cons_of_mem v hm)).assign hbv (fun he => hv' (he ▸ hm)) task
      · exact (hc w' (List.mem_cons_of_mem w hm)).assign hcw (fun he => hw' (he ▸ hm)) task

/-! ## One event -/

theorem settle (h : Alike π b c) (left : b.phase = .scheduling) (right : c.phase = .scheduling) :
    Progress.Alike π b.settle c.settle := by
  have hb : b.phase ≠ .terminated := by rw [left]; simp
  have hc : c.phase ≠ .terminated := by rw [right]; simp
  have hpending := h.pending
  cases hp : b.events.pending with
  | nil =>
    rw [hp] at hpending
    have hp' : c.events.pending = [] := List.forall₂_nil_left_iff.mp hpending
    rw [settle_of_done hb hp, settle_of_done hc hp']
    exact .running (h.schedule h.clock .endOfSimulation) left right
  | cons e rest =>
    rw [hp] at hpending
    obtain ⟨e', rest', -, -, hp'⟩ := List.forall₂_cons_left_iff.mp hpending
    rw [settle_of_pending hb (by rw [hp]; simp), settle_of_pending hc (by rw [hp']; simp)]
    exact .running h left right

theorem rearm (h : Alike π b c) (left : b.phase = .scheduling) (right : c.phase = .scheduling) :
    Progress.Alike π (settled b.rearm) (settled c.rearm) := by
  rw [rearm_eq, rearm_eq]
  simp only [h.pool.busy_iff, h.scheduler]
  split
  · exact h.settle left right
  · split
    · rw [h.clock]
      exact .failed _
    · exact (h.schedule (by rw [h.clock, h.delay]) .nextCycle).settle left right

/-- A tick of both. -/
theorem handleCycle (h : Alike π b c) (left : b.phase = .scheduling) (right : c.phase = .scheduling)
    (hb : b.pool.Numbered) (hc : c.pool.Numbered)
    (hidle : List.Forall₂ π.Peers b.pool.idle c.pool.idle) :
    Progress.Alike π (settled b.handleCycle) (settled c.handleCycle) := by
  obtain ⟨b', c', hb', hc', h', left', right'⟩ := dispatchAll hidle hb.idle_nodup hc.idle_nodup
    (h.beginCycle hidle) (fun v hv => hb.mem_idle_iff.mp hv) (fun w hw => hc.mem_idle_iff.mp hw)
    left right
  rw [handleCycle_of_dispatchAll hb', handleCycle_of_dispatchAll hc']
  exact h'.rearm left' right'

theorem handleFinished (h : Alike π b c) (left : b.phase = .scheduling)
    (right : c.phase = .scheduling) (hvw : π.Peers v w) {task : TaskKey}
    (hheld : b.pool.holds? v = some task) (hx : b.scheduler.isExecuted task = false)
    (started : Time) : Progress.Alike π (settled (b.handleFinished v task started))
      (settled (c.handleFinished w task started)) := by
  have hheld' : c.pool.holds? w = some task := (h.pool.held hvw).trans hheld
  rw [handleFinished_of_held hheld hx, handleFinished_of_held hheld' (h.scheduler ▸ hx)]
  exact (h.complete hvw (Pool.lt_of_holds? hheld) (Pool.lt_of_holds? hheld') task started).settle
    left right

theorem handleEnd (h : Alike π b c) :
    Progress.Alike π (settled b.handleEnd) (settled c.handleEnd) := by
  rw [handleEnd_eq, handleEnd_eq, h.scheduler]
  split
  · rw [h.clock]
    exact .failed _
  · show Progress.Alike π b.terminate.settle c.terminate.settle
    rw [settle_terminate, settle_terminate]
    exact .finished (.of_trace h.label (congrArg Scheduler.policy h.scheduler) h.clock
      h.lastCompletion h.executed h.terminate.trace)

end Alike

/-! ## Whole runs -/

/-- Whatever the crew does, its idle workers are in the order of their ranks. -/
theorem Steady.idle_eq {created : WorkerId → Bool} {b : Broker} {log : List Assignment}
    {timer : Time × Event} (h : Steady created b log timer) :
    b.pool.idle = (b.pool.crew created).filter fun w => (b.pool.holds? w).isNone := by
  refine h.flight.accounted.pool.numbered.idle_eq fun w hw => ?_
  rw [h.flight.answered w hw]
  cases created w <;> simp

section Runs

variable {created created' : WorkerId → Bool} {b₀ c₀ b c : Broker}
  (hleft : b₀.pool.crew created = π.left) (hright : c₀.pool.crew created' = π.right)

include hleft hright

/-- One event of both. -/
theorem Alike.advance (h : Alike π b c) (left : b.phase = .scheduling)
    (right : c.phase = .scheduling) (hb : Course created b₀ (.running b))
    (hc : Course created' c₀ (.running c)) : Progress.Alike π b.advance c.advance := by
  obtain ⟨hbs, log, timer, hb⟩ := hb.steady_of_scheduling left
  obtain ⟨hcs, log', timer', hc⟩ := hc.steady_of_scheduling right
  obtain ⟨⟨time, x⟩, rest, hp, hnext⟩ := hb.exists_next
  have hpending := h.pending
  rw [hp] at hpending
  obtain ⟨⟨time', y⟩, rest', ⟨htime, hxy⟩, hrest, hp'⟩ := List.forall₂_cons_left_iff.mp hpending
  obtain rfl : time' = time := htime
  let b' : Broker := { b with clock := time', events := ⟨rest⟩ }
  let c' : Broker := { c with clock := time', events := ⟨rest'⟩ }
  have h' : Alike π b' c' := h.at_event time' hrest
  rw [advance_of_next hp, advance_of_next hp']
  cases hxy with
  | nextCycle =>
    have hidle : List.Forall₂ π.Peers b.pool.idle c.pool.idle := by
      refine h.pool.idle ?_ ?_
      · rw [← hleft, ← Pool.crew_congr hbs.size hbs.speed]
        exact hb.idle_eq
      · rw [← hright, ← Pool.crew_congr hcs.size hcs.speed]
        exact hc.idle_eq
    rw [step_nextCycle (b := b') left, step_nextCycle (b := c') right]
    exact h'.handleCycle left right hb.flight.accounted.pool.numbered
      hc.flight.accounted.pool.numbered hidle
  | taskFinished hvw task started =>
    rcases hnext with rfl | ⟨a, ha, he⟩
    · rcases hb.timer_cases with htimer | ⟨htimer, -⟩ <;> cases htimer
    · obtain ⟨rfl, rfl, rfl⟩ := Event.taskFinished.inj (Prod.mk.inj he).2
      rw [step_taskFinished (b := b') left, step_taskFinished (b := c') right]
      exact h'.handleFinished left right hvw (hb.flight.held a ha) (mem_unfinished.mp ha).2 _
  | endOfSimulation =>
    rw [step_endOfSimulation (b := b') left, step_endOfSimulation (b := c') right]
    exact h'.handleEnd

/-- Runs that are in step stay in step. -/
theorem Alike.progress (h : Alike π b c) (left : b.phase = .scheduling)
    (right : c.phase = .scheduling) (hb : Course created b₀ (.running b))
    (hc : Course created' c₀ (.running c)) (n : Nat) :
    Progress.Alike π (b.progress n) (c.progress n) := by
  induction n generalizing b c with
  | zero => exact .running h left right
  | succ n ih =>
    have hadv := h.advance hleft hright left right hb hc
    have hb' := hb.advance
    have hc' := hc.advance
    unfold Broker.progress
    generalize b.advance = p at hadv hb' ⊢
    generalize c.advance = q at hadv hc' ⊢
    cases hadv with
    | running h left right => exact ih h left right hb' hc'
    | finished h => exact .finished h
    | failed e => exact .failed e

end Runs

end Broker

end Makespan
