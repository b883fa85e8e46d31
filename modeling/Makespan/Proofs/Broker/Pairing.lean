import Makespan.Proofs.Broker.Dependencies
import Makespan.Proofs.EventQueue.Placement
import Makespan.Proofs.Pool.Ranking
import Makespan.Proofs.Scheduler.ArrivalOrder

/-! One cycle, from end to end. The ready tasks and the idle workers are paired in their two orders
until either side runs out; that settles the trace, the pool, the scheduler and the events, and
whether the cycle fails. -/

namespace Makespan

namespace Pool

variable {p : Pool} {w : WorkerId} {task : TaskKey} {pairs : List (TaskKey × WorkerId)}

/-- Binds some tasks to one worker each. -/
def bindAll (p : Pool) (pairs : List (TaskKey × WorkerId)) : Pool :=
  pairs.foldl (fun p x => p.setRunning x.2 (some x.1)) p

@[simp] theorem status?_bindAll (p : Pool) (pairs : List (TaskKey × WorkerId)) (w : WorkerId) :
    (p.bindAll pairs).status? w = p.status? w := by
  induction pairs generalizing p with
  | nil => rfl
  | cons x pairs ih => exact (ih _).trans (status?_setRunning _ _ _ _)

theorem Numbered.bindAll (h : p.Numbered) (pairs : List (TaskKey × WorkerId)) :
    (p.bindAll pairs).Numbered := by
  induction pairs generalizing p with
  | nil => exact h
  | cons x pairs ih => exact ih (h.setRunning _ _)

theorem worker?_bindAll_of_not_mem (h : w ∉ pairs.map (·.2)) :
    (p.bindAll pairs).worker? w = p.worker? w := by
  induction pairs generalizing p with
  | nil => rfl
  | cons x pairs ih =>
    obtain ⟨hw, hpairs⟩ := not_or.mp (mt List.mem_cons.mpr h)
    have hset : (p.setRunning x.2 (some x.1)).worker? w = p.worker? w := by
      rw [worker?_setRunning]
      simp [hw]
    exact (ih hpairs).trans hset

theorem worker?_bindAll_of_mem (hn : (pairs.map (·.2)).Nodup) (h : (task, w) ∈ pairs) :
    (p.bindAll pairs).worker? w = (p.worker? w).map fun x => { x with running := some task } := by
  induction pairs generalizing p with
  | nil => cases h
  | cons x pairs ih =>
    obtain ⟨hx, hn⟩ := List.nodup_cons.mp hn
    rcases List.mem_cons.mp h with rfl | h
    · refine (worker?_bindAll_of_not_mem hx).trans ?_
      rw [worker?_setRunning]
      simp
    · have hw : w ≠ x.2 := by
        rintro rfl
        exact hx (List.mem_map_of_mem (f := (·.2)) h)
      refine (ih hn h).trans ?_
      rw [worker?_setRunning, Option.map_map]
      simp [hw, Function.comp_def]

end Pool

namespace Broker

variable {b : Broker} {log : List Assignment}

/-! ## Serving a list of workers -/

/-- Assigns tasks at the current clock, one after the other. -/
def assignAll (b : Broker) (pairs : List (TaskKey × WorkerId)) : Broker :=
  pairs.foldl (fun b x => b.assign ⟨b.clock, x.1, x.2⟩) b

/-- When a task would be finished that is given to a worker now, and the event that tells it. -/
def completion (b : Broker) (x : TaskKey × WorkerId) : Time × Event :=
  (b.due ⟨b.clock, x.1, x.2⟩, .taskFinished x.2 x.1 b.clock)

/-- What all assignments come to. -/
theorem assignAll_eq (b : Broker) (pairs : List (TaskKey × WorkerId)) :
    b.assignAll pairs =
      { b with
        pool := b.pool.bindAll pairs
        scheduler := { b.scheduler with queue := b.scheduler.queue.drop pairs.length }
        trace := b.trace ++
          (pairs.map fun x => .dispatch b.clock (b.scheduler.graph.id x.1) x.2).toArray
        events := scheduleAll b.events (pairs.map b.completion) } := by
  induction pairs generalizing b with
  | nil => simp [assignAll, Pool.bindAll, scheduleAll]
  | cons x pairs ih =>
    have hdue : ∀ a, (b.assign ⟨b.clock, x.1, x.2⟩).due a = b.due a :=
      (SameSetup.assign b ⟨b.clock, x.1, x.2⟩).due
    have hcompletion : (b.assign ⟨b.clock, x.1, x.2⟩).completion = b.completion :=
      funext fun y => Prod.ext (hdue _) rfl
    refine (ih (b.assign ⟨b.clock, x.1, x.2⟩)).trans ?_
    rw [hcompletion]
    simp [assign, record, schedule, Pool.bindAll, scheduleAll, completion, List.drop_tail]

/-- The idle workers are served without a failure, each with the next task of the queue. -/
theorem dispatchAll_eq {ws : List WorkerId} (hn : ws.Nodup) (hws : ∀ w ∈ ws, b.CanTake w) :
    b.dispatchAll ws = ⟨b.assignAll (b.scheduler.queue.zip ws), none⟩ := by
  induction ws generalizing b with
  | nil => rw [List.zip_nil_right]; rfl
  | cons w ws ih =>
    have hw : b.CanTake w := hws w (by simp)
    obtain ⟨hnw, hn⟩ := List.nodup_cons.mp hn
    cases hq : b.scheduler.queue with
    | nil => exact dispatchAll_of_empty hq _
    | cons task rest =>
      have hrest : (b.assign ⟨b.clock, task, w⟩).scheduler.queue = rest := by
        simp [assign, record, schedule, hq]
      rw [dispatchAll_cons hw hq, ih hn, hrest]
      · rfl
      · exact fun v hv => (hws v (List.mem_cons_of_mem w hv)).assign hw
          (fun he => hnw (he ▸ hv)) task

/-! ## A cycle -/

/-- All tasks that are ready, the new arrivals among them, in the order of the policy. -/
def ready (b : Broker) : List TaskKey :=
  b.scheduler.policy.order b.scheduler.graph (b.scheduler.queue ++ b.scheduler.arrivals)

/-- The tasks that a cycle gives out, with the workers that they go to. -/
def pairs (b : Broker) : List (TaskKey × WorkerId) := b.ready.zip b.pool.idle

/-- The broker with all of them given out. -/
def paired (b : Broker) : Broker := b.beginCycle.assignAll b.pairs

/-- A cycle changes the pool, the scheduler, the trace and the events. -/
theorem paired_eq (b : Broker) : b.paired =
    { b with
      pool := b.pool.bindAll b.pairs
      scheduler := { b.scheduler with queue := b.ready.drop b.pairs.length, arrivals := [] }
      trace := b.trace ++ (.cycle b.clock (b.ready.map b.scheduler.graph.id) b.pool.idle ::
        b.pairs.map fun x => .dispatch b.clock (b.scheduler.graph.id x.1) x.2).toArray
      events := scheduleAll b.events (b.pairs.map b.completion) } := by
  rw [paired, assignAll_eq, List.toArray_cons]
  simp [beginCycle, record, Scheduler.cycle, ready]
  rfl

/-- Once all tasks are given out, the cycle sets the timer again or gives up. -/
theorem handleCycle_eq (h : b.pool.Numbered) : b.handleCycle =
    if b.scheduler.hasWork = false then ⟨b.paired, none⟩
    else if b.paired.pool.busy = 0 ∧ b.paired.scheduler.queue = [] then
      ⟨b.paired, some (.stalled b.clock b.scheduler.remaining)⟩
    else ⟨b.paired.schedule (b.clock + b.cycleDelay) .nextCycle, none⟩ := by
  have hp := paired_eq b
  have hwork : b.paired.scheduler.hasWork = b.scheduler.hasWork := by
    rw [hp]
    rfl
  have hremaining : b.paired.scheduler.remaining = b.scheduler.remaining := by
    rw [hp]
    rfl
  have hclock : b.paired.clock = b.clock := by rw [hp]
  have hdelay : b.paired.cycleDelay = b.cycleDelay := by rw [hp]
  have hall : b.handleCycle = b.paired.rearm :=
    handleCycle_of_dispatchAll (dispatchAll_eq (b := b.beginCycle) h.idle_nodup
      fun _ hw => h.mem_idle_iff.mp hw)
  rw [hall, rearm_eq, hwork, hremaining, hclock, hdelay]

/-- After the pairing only events change. -/
theorem broker_handleCycle (h : b.pool.Numbered) :
    b.handleCycle.broker = { b.paired with events := b.handleCycle.broker.events } := by
  rw [handleCycle_eq h]
  split_ifs <;> rfl

/-- The timer is set behind the completions, while there is work and unless the cycle fails. -/
theorem events_handleCycle (h : b.pool.Numbered) : b.handleCycle.broker.events =
    scheduleAll b.events (b.pairs.map b.completion ++
      if b.scheduler.hasWork && b.handleCycle.error?.isNone then
        [(b.clock + b.cycleDelay, .nextCycle)]
      else []) := by
  have hevents : b.paired.events = scheduleAll b.events (b.pairs.map b.completion) := by
    rw [paired_eq]
  rw [handleCycle_eq h]
  by_cases hdone : b.scheduler.hasWork = false
  · rw [if_pos hdone]
    simp [hdone, hevents]
  · rw [if_neg hdone]
    by_cases hstalled : b.paired.pool.busy = 0 ∧ b.paired.scheduler.queue = []
    · rw [if_pos hstalled]
      simp [hevents]
    · rw [if_neg hstalled]
      show b.paired.events.schedule _ _ = _
      rw [hevents]
      simp [hdone, scheduleAll]

/-- A cycle fails if work is left that nobody does and that cannot be given out. -/
theorem error_handleCycle_iff (h : b.pool.Numbered) (e : Error) : b.handleCycle.error? = some e ↔
    e = .stalled b.clock b.scheduler.remaining ∧ b.scheduler.hasWork = true ∧
      (∀ w, b.paired.pool.holds? w = none) ∧ b.paired.scheduler.queue = [] := by
  rw [handleCycle_eq h, ← Pool.busy_eq_zero_iff]
  split_ifs with hdone hstalled
  · simp [hdone]
  · simp [eq_comm, hdone, hstalled]
  · simpa [hdone] using fun _ hb => not_and.mp hstalled hb

/-! ## Pending events -/

/-- All events wait in order of time. -/
def Timed (b : Broker) : Prop := b.events.pending.Pairwise fun x y => x.1.rank ≤ y.1.rank

/-- Events that are scheduled come behind those that wait, and are sorted in. -/
theorem Timed.stableSorted (h : b.Timed) (events : List (Time × Event)) :
    StableSorted (fun e => e.1.rank) (b.events.pending ++ events)
      (scheduleAll b.events events).pending := by
  induction events using List.reverseRecOn with
  | nil => rw [List.append_nil]; exact .refl h
  | append_singleton events e ih =>
    rw [← List.append_assoc, scheduleAll, List.foldl_append]
    exact EventQueue.stableSorted_place ih e.1 e.2

/-- No call takes an event out of the queue. -/
theorem Accounted.exists_scheduled (h : b.Accounted log) (c : Call) :
    ∃ events, (b.call c).broker.events = scheduleAll b.events events := by
  cases c with
  | start created =>
    by_cases hp : b.phase = .init
    · rw [call, start_answering hp, requestAll_eq]
      exact ⟨_, rfl⟩
    · rw [call, start_of_started hp]
      exact ⟨[], rfl⟩
  | step event =>
    show ∃ events, (b.step event).broker.events = scheduleAll b.events events
    cases hp : b.phase <;> cases event <;> simp only [step, hp]
    case provisioning.workerCreated w created =>
      by_cases hw : w < b.pool.size
      · rw [handleCreated_of_lt hw]
        split
        · exact ⟨[], rfl⟩
        · split
          · exact ⟨[], rfl⟩
          · exact ⟨[(b.clock, .nextCycle)], rfl⟩
      · rw [handleCreated_of_not_lt hw]
        exact ⟨[], rfl⟩
    case scheduling.nextCycle => exact ⟨_, events_handleCycle h.pool.numbered⟩
    case scheduling.taskFinished w task started =>
      rcases handleFinished_cases b w task started with hb | hb | hb <;> rw [hb] <;>
        exact ⟨[], rfl⟩
    case scheduling.endOfSimulation =>
      rw [handleEnd_eq]
      split <;> exact ⟨[], rfl⟩
    all_goals exact ⟨[], rfl⟩

/-- Whatever calls are made, events wait in order of time. -/
theorem Accounted.timed_after (h : b.Accounted []) (ht : b.Timed) (calls : List Call) :
    (b.after calls).Timed := by
  refine (after_induct (I := fun c => (∃ log, c.Accounted log) ∧ c.Timed) (fun b c hb => ?_)
    ⟨⟨[], h⟩, ht⟩ calls).2
  obtain ⟨⟨log, h⟩, ht⟩ := hb
  obtain ⟨events, he⟩ := h.exists_scheduled c
  refine ⟨(h.call_settles c).accounted, ?_⟩
  rw [Timed, he]
  exact (ht.stableSorted events).ascending

/-! ## What a cycle comes to -/

/-- What a cycle comes to, for the broker `b` before it and the outcome `o`. -/
structure Cycled (b : Broker) (o : Outcome) : Prop where
  /-- The queue and behind it the new arrivals, by the key of the policy. -/
  ready_sorted : StableSorted (fun k => b.scheduler.graph.sortKey k b.scheduler.policy)
    (b.scheduler.queue ++ b.scheduler.arrivals) b.ready
  mem_idle_iff : ∀ w, w ∈ b.pool.idle ↔
    b.pool.status? w = some .available ∧ b.pool.holds? w = none
  idle_nodup : b.pool.idle.Nodup
  idle_pairwise : b.pool.idle.Pairwise fun v w => outranks b.pool.speed v w
  count : b.pairs.length = min b.ready.length b.pool.idle.length
  trace : o.broker.trace.toList = b.trace.toList ++
    .cycle b.clock (b.ready.map b.scheduler.graph.id) b.pool.idle ::
      b.pairs.map fun x => .dispatch b.clock (b.scheduler.graph.id x.1) x.2
  bound : ∀ x ∈ b.pairs, o.broker.pool.worker? x.2 =
    (b.pool.worker? x.2).map fun y => { y with running := some x.1 }
  others : ∀ w ∉ b.pairs.map (·.2), o.broker.pool.worker? w = b.pool.worker? w
  scheduler : o.broker.scheduler =
    { b.scheduler with queue := b.ready.drop b.pairs.length, arrivals := [] }
  spent : o.broker.scheduler.queue = [] ∨ o.broker.pool.idle = []
  work : b.scheduler.hasWork = true ↔
    ∃ k < b.scheduler.graph.size, b.scheduler.isExecuted k = false
  /-- What was pending, then the completions, and then the timer if it is set again. -/
  pending_sorted : StableSorted (fun e => e.1.rank)
    (b.events.pending ++ (b.pairs.map b.completion ++
      if b.scheduler.hasWork && o.error?.isNone then [(b.clock + b.cycleDelay, .nextCycle)]
      else []))
    o.broker.events.pending
  /-- The timer stands behind everything of its time. -/
  timer_last : b.scheduler.hasWork = true → o.error? = none → ∃ front back,
    o.broker.events.pending = front ++ (b.clock + b.cycleDelay, .nextCycle) :: back ∧
      (∀ e ∈ front, e.1.rank ≤ (b.clock + b.cycleDelay).rank) ∧
      ∀ e ∈ back, (b.clock + b.cycleDelay).rank < e.1.rank
  error_iff : ∀ e, o.error? = some e ↔
    e = .stalled b.clock b.scheduler.remaining ∧ b.scheduler.hasWork = true ∧
      (∀ w, o.broker.pool.holds? w = none) ∧ o.broker.scheduler.queue = []
  rest : o.broker =
    { b with
      pool := o.broker.pool, scheduler := o.broker.scheduler, trace := o.broker.trace
      events := o.broker.events }

theorem length_pairs (b : Broker) :
    b.pairs.length = min b.ready.length b.pool.idle.length := List.length_zip

/-- The idle workers are taken from the front. -/
theorem workers_pairs (b : Broker) : b.pairs.map (·.2) = b.pool.idle.take b.pairs.length := by
  have hlen : (b.pool.idle.take b.pairs.length).length ≤ (b.ready.take b.pairs.length).length := by
    rw [List.length_take, List.length_take, length_pairs]
    omega
  have htake : b.pairs =
      (b.ready.take b.pairs.length).zip (b.pool.idle.take b.pairs.length) := by
    rw [length_pairs]
    exact List.zip_eq_zip_take_min
  conv_lhs => rw [htake]
  exact List.map_snd_zip hlen

theorem workers_pairs_nodup (h : b.pool.Numbered) : (b.pairs.map (·.2)).Nodup := by
  rw [workers_pairs]
  exact h.idle_nodup.sublist (List.take_sublist _ _)

/-- Tasks are left over only when every worker is busy. -/
theorem spent_paired (h : b.pool.Numbered) :
    b.ready.drop b.pairs.length = [] ∨ (b.pool.bindAll b.pairs).idle = [] := by
  rcases Nat.le_total b.ready.length b.pool.idle.length with hlen | hlen
  · left
    rw [List.drop_eq_nil_iff, length_pairs, Nat.min_eq_left hlen]
  · right
    have hworkers : b.pairs.map (·.2) = b.pool.idle := List.map_snd_zip hlen
    rw [List.eq_nil_iff_forall_not_mem]
    intro w hw
    rw [(h.bindAll b.pairs).mem_idle_iff, Pool.status?_bindAll] at hw
    by_cases hm : w ∈ b.pool.idle
    · rw [← hworkers] at hm
      obtain ⟨x, hx, rfl⟩ := List.mem_map.mp hm
      obtain ⟨y, hy⟩ := Pool.exists_worker (Pool.lt_of_status? hw.1)
      rw [Pool.holds?, Pool.worker?_bindAll_of_mem (workers_pairs_nodup h) hx, hy] at hw
      cases hw.2
    · refine hm (h.mem_idle_iff.mpr ⟨hw.1, ?_⟩)
      rw [Pool.holds?, ← Pool.worker?_bindAll_of_not_mem (hworkers ▸ hm)]
      exact hw.2

/-- The ready tasks stand by the key of the policy, and those of one key as they came. -/
theorem Accounted.ready_sorted (h : b.Accounted log) :
    StableSorted (fun k => b.scheduler.graph.sortKey k b.scheduler.policy)
      (b.scheduler.queue ++ b.scheduler.arrivals) b.ready := by
  refine (StableSorted.mergeSort _ _).congr fun k hk => (Graph.rankOf_eq ?_ _).symm
  have hready := (h.scheduler.mem_iff k).mp (by
    rw [List.append_assoc]
    exact List.mem_append_right _ hk)
  exact ((h.scheduler.ready_iff k).mp hready).1

theorem Accounted.cycled (h : b.Accounted log) (ht : b.Timed) : Cycled b b.handleCycle where
  ready_sorted := h.ready_sorted
  mem_idle_iff _ := h.pool.numbered.mem_idle_iff
  idle_nodup := h.pool.numbered.idle_nodup
  idle_pairwise := h.pool.numbered.idle_pairwise
  count := b.length_pairs
  trace := by
    rw [broker_handleCycle h.pool.numbered, paired_eq]
    simp
  bound x hx := by
    rw [broker_handleCycle h.pool.numbered, paired_eq]
    exact Pool.worker?_bindAll_of_mem (workers_pairs_nodup h.pool.numbered) hx
  others w hw := by
    rw [broker_handleCycle h.pool.numbered, paired_eq]
    exact Pool.worker?_bindAll_of_not_mem hw
  scheduler := by rw [broker_handleCycle h.pool.numbered, paired_eq]
  spent := by
    rw [broker_handleCycle h.pool.numbered, paired_eq]
    exact spent_paired h.pool.numbered
  work := h.scheduler.hasWork_iff
  pending_sorted := by
    rw [events_handleCycle h.pool.numbered]
    exact ht.stableSorted _
  timer_last hw hok := by
    have hsorted := ht.stableSorted
      (b.pairs.map b.completion ++ [(b.clock + b.cycleDelay, .nextCycle)])
    rw [← List.append_assoc] at hsorted
    rw [events_handleCycle h.pool.numbered, hw, hok]
    exact hsorted.exists_split
  error_iff e := by
    rw [broker_handleCycle h.pool.numbered]
    exact error_handleCycle_iff h.pool.numbered e
  rest := by
    have hrest := broker_handleCycle h.pool.numbered
    rw [paired_eq] at hrest
    rw [hrest]

/-- A cycle pairs the ready tasks with the idle workers, for every graph and policy and whatever
calls came before. -/
theorem cycle_pairs_ready_with_idle (ds : List Graph.Declaration) (policy : Policy) :
    ∃ s, Scheduler.new (.ofDeclarations ds) policy = .ok s ∧
      ∀ (label : String) (tiers : List Tier) (delay : Time) (calls : List Call),
        let b := (new label s tiers delay).after calls
        b.phase = .scheduling → Cycled b (b.step .nextCycle) := by
  obtain ⟨s, hs, -, hn⟩ := new_accounted_of_declarations ds policy
  refine ⟨s, hs, fun label tiers delay calls => ?_⟩
  intro b hp
  obtain ⟨⟨log, hacc⟩, -⟩ := (hn label tiers delay).after calls
  rw [step_nextCycle hp]
  exact Accounted.cycled hacc ((hn label tiers delay).timed_after .nil calls)

/-- Three tasks that do not depend on each other. -/
def threeAtOnce : List Graph.Declaration :=
  [.task (.new "a" "" "" 3 1), .task (.new "b" "" "" 2 1), .task (.new "c" "" "" 1 1)]

/-- A slow worker and a fast one are ready for them. -/
def opened (s : Scheduler) : Broker :=
  (new "three" s [⟨1, 1⟩, ⟨2, 1⟩] 1).after
    [.start fun _ => true, .step (.workerCreated 0 true), .step (.workerCreated 1 true)]

/-- Each worker gets a task, and one task has to wait. -/
theorem three_tasks_for_two_workers : ∃ s,
    Scheduler.new (.ofDeclarations threeAtOnce) .shortestFirst = .ok s ∧
      (opened s).phase = .scheduling ∧ Cycled (opened s) ((opened s).step .nextCycle) ∧
        (opened s).pairs.length = 2 ∧
        ((opened s).step .nextCycle).broker.scheduler.queue.length = 1 := by
  obtain ⟨s, hs, hcycled⟩ := cycle_pairs_ready_with_idle threeAtOnce .shortestFirst
  have hrun : (Scheduler.new (.ofDeclarations threeAtOnce) .shortestFirst).toOption.map (fun s =>
      ((opened s).phase, (opened s).scheduler.queue, (opened s).scheduler.arrivals,
        ((opened s).pool.workers.toList.filter (·.isIdle)).length)) =
        some (.scheduling, [0, 1, 2], [], 2) := by
    decide +kernel
  rw [hs] at hrun
  have hall := Option.some.inj hrun
  simp only [Prod.mk.injEq] at hall
  obtain ⟨hphase, hqueue, harrivals, hidle⟩ := hall
  have h : Cycled (opened s) ((opened s).step .nextCycle) := hcycled _ _ _ _ hphase
  have hready : (opened s).ready.length = 3 := by
    rw [h.ready_sorted.perm.length_eq, hqueue, harrivals]
    rfl
  have hcount : (opened s).pairs.length = 2 := by
    rw [h.count, hready, Pool.idle, List.length_map, List.length_mergeSort, hidle]
    rfl
  refine ⟨s, hs, hphase, h, hcount, ?_⟩
  rw [h.scheduler, List.length_drop, hready, hcount]

end Broker

end Makespan
