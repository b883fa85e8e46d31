import Makespan.Proofs.Binary64.Monotone
import Makespan.Proofs.Broker.Kept

/-! A timer that cannot get past some time, and tasks that are not over by then. Sums are rounded, so
that from some time on a delay is too small to change it; a task that ends later than that is never
reached. -/

namespace Makespan.Broker

/-- A time that the timer stays at, and that every task outlasts on every worker. -/
structure Outlasts (created : WorkerId → Bool) (b₀ : Broker) (limit : Time) : Prop where
  number : limit.NonNegative
  still : limit + b₀.cycleDelay = limit
  work : 0 < b₀.scheduler.graph.size
  long : ∀ w < b₀.pool.size, created w = true → ∀ k < b₀.scheduler.graph.size,
    limit.rank < (b₀.pool.executionTime w (b₀.scheduler.graph.workLength k)).rank

/-- A broker that has not got past a time and has finished nothing. -/
structure Unfinished (b₀ : Broker) (limit : Time) (b : Broker) : Prop where
  setup : SameSetup b₀ b
  clock : b.clock.rank ≤ limit.rank
  ticks : ∀ e ∈ b.events.pending, e.2 = .nextCycle → e.1.rank ≤ limit.rank
  executed : b.scheduler.executedCount = 0
  running : b.finishTime = none

variable {created : WorkerId → Bool} {b₀ b : Broker} {log : List Assignment} {limit : Time}

namespace Unfinished

theorem schedule (h : Unfinished b₀ limit b) {time : Time} {event : Event}
    (ht : event = .nextCycle → time.rank ≤ limit.rank) :
    Unfinished b₀ limit (b.schedule time event) :=
  { h with
    setup := h.setup.trans (.schedule b time event)
    ticks := by
      intro e he hc
      rcases List.mem_cons.mp ((EventQueue.place_perm _ _ _).mem_iff.mp he) with rfl | he
      · exact ht hc
      · exact h.ticks e he hc }

/-- With nothing finished there is work. -/
theorem hasWork (h : Unfinished b₀ limit b) (hlong : Outlasts created b₀ limit) :
    b.scheduler.hasWork = true := by
  have hwork := hlong.work
  rw [← h.setup.graph] at hwork
  simpa [Scheduler.hasWork, h.executed] using hwork

theorem answerNext (h : Unfinished b₀ limit b) (hlong : Outlasts created b₀ limit) (n : Nat) :
    Unfinished b₀ limit (b.answerNext created n) where
  setup := h.setup.trans (.answerNext b created n)
  clock := hlong.number.zero_rank_le
  ticks := by
    intro e he hc
    obtain ⟨w, -, rfl⟩ := List.mem_map.mp he
    cases hc
  executed := h.executed
  running := h.running

theorem beginCycle (h : Unfinished b₀ limit b) {time : Time} {rest : List (Time × Event)}
    (hp : b.events.pending = (time, .nextCycle) :: rest) :
    Unfinished b₀ limit { b with clock := time, events := ⟨rest⟩ }.beginCycle where
  setup := (h.setup.trans (.at_event b time ⟨rest⟩)).trans (.beginCycle _)
  clock := h.ticks (time, .nextCycle) (by simp [hp]) rfl
  ticks := fun e he hc => h.ticks e (by rw [hp]; exact List.mem_cons_of_mem _ he) hc
  executed := h.executed
  running := h.running

theorem assign (h : Unfinished b₀ limit b) (a : Assignment) :
    Unfinished b₀ limit (b.assign a) := by
  have hs : Unfinished b₀ limit (b.schedule (b.due a) (.taskFinished a.worker a.task a.started)) :=
    h.schedule fun hc => by cases hc
  exact { hs with setup := h.setup.trans (.assign b a) }

/-- Where a delay does not change the limit, no tick gets past it. -/
theorem rearmed (h : Unfinished b₀ limit b) (hlong : Outlasts created b₀ limit)
    (hb : InCycle created b log) :
    Unfinished b₀ limit (b.schedule (b.clock + b.cycleDelay) .nextCycle) := by
  refine h.schedule fun _ => ?_
  have hle := hb.timely.clock.add_le_add hlong.number hb.timely.paced.delay h.clock
  rwa [h.setup.delay, hlong.still, ← h.setup.delay] at hle

/-- The timer goes off before any task is over. -/
theorem not_complete (h : Unfinished b₀ limit b) (hlong : Outlasts created b₀ limit)
    {timer : Time × Event} (hb : Steady created b log timer) {a : Assignment}
    (ha : a ∈ b.unfinished log) {rest : List (Time × Event)} :
    b.events.pending ≠ b.notice a :: rest := by
  intro hp
  have hacc := hb.flight.accounted
  have hal := (mem_unfinished.mp ha).1
  -- the worker was created, so that the task outlasts the limit on it
  obtain ⟨hlt, hcreated⟩ := hb.flight.worker_created ha
  have hdue : limit.rank < (b.due a).rank := by
    have hl := hlong.long a.worker (h.setup.size ▸ hlt) hcreated a.task
      (by rw [← h.setup.graph]; exact hacc.task_lt hal)
    rw [← h.setup.graph, ← Pool.executionTime_congr (h.setup.speed a.worker)] at hl
    exact hl.trans_le ((hb.timely.started a hal).le_add (hb.timely.paced.duration _ _))
  have htimer : timer ∈ b.events.pending := hb.flight.pending.mem_iff.mpr (by simp)
  have hticks : timer.1.rank ≤ limit.rank := by
    refine h.ticks timer htimer (hb.timer_cases.resolve_right fun ⟨_, hw⟩ => ?_)
    rw [hacc.hasWork ha] at hw
    cases hw
  have hord := hb.timely.ordered
  rw [hp, List.pairwise_cons] at hord
  rw [hp] at htimer
  rcases List.mem_cons.mp htimer with he | hm
  · rw [he] at hticks
    exact absurd hticks (not_le.mpr hdue)
  · exact absurd ((hord.1 timer hm).1.trans hticks) (not_le.mpr hdue)

/-- If every task outlasts the timer, nothing is ever finished. -/
theorem kept (hlong : Outlasts created b₀ limit) :
    Kept created fun b _ => Unfinished b₀ limit b where
  answer _ _ h := h.answerNext hlong _
  opened _ h :=
    { h.schedule (fun _ => h.clock) with setup := h.setup.trans (.beginScheduling _) }
  tick _ hp h := h.beginCycle hp
  assign _ _ _ h := h.assign _
  rearmed hb _ h := h.rearmed hlong hb
  done _ hw h := by
    rw [h.hasWork hlong] at hw
    cases hw
  complete hb ha hp h := absurd hp (h.not_complete hlong hb ha)
  terminate hb _ h := by
    have hw := hb.done_of_end
    rw [h.hasWork hlong] at hw
    cases hw

end Unfinished

theorem Accounted.executedCount_eq_zero (h : b.Accounted []) : b.scheduler.executedCount = 0 := by
  rw [h.scheduler.count, Array.count_eq_zero]
  intro hm
  obtain ⟨k, hk⟩ := Array.getElem?_of_mem hm
  have hx : b.scheduler.isExecuted k = true := by
    simp [Scheduler.isExecuted, Array.getD_eq_getD_getElem?, hk]
  obtain ⟨a, ha, -⟩ := h.executed_logged k hx
  cases ha

/-- Before its first tick a broker has finished nothing. -/
theorem Standing.unfinished (h : Standing created b []) (hp : b.phase = .provisioning)
    (hsetup : SameSetup b₀ b) (hlimit : limit.NonNegative) (hr : b.finishTime = none) :
    Unfinished b₀ limit b := by
  cases h with
  | provisioning lt h =>
    exact
      { setup := hsetup
        clock := by
          rw [h.clock]
          exact hlimit.zero_rank_le
        ticks := by
          intro e he hc
          rw [h.pending] at he
          obtain ⟨w, -, rfl⟩ := List.mem_map.mp he
          cases hc
        executed := h.accounted.executedCount_eq_zero
        running := hr }
  | steady h =>
    rw [h.flight.phase] at hp
    cases hp

/-- If every task outlasts the timer, no run gives a report. -/
theorem Standing.no_report (h : Standing created b log) (hb : Unfinished b₀ limit b)
    (hlong : Outlasts created b₀ limit) (n : Nat) (r : Report) :
    b.progress n ≠ .ended (.ok r) := by
  intro hn
  have hkept := (Unfinished.kept hlong).progress h hb n
  rw [hn] at hkept
  cases hkept with
  | finished hc hr =>
    unfold report at hr
    rw [hc.running] at hr
    cases hr

end Makespan.Broker
