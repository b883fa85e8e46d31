import Makespan.Proofs.Binary64.Monotone
import Makespan.Proofs.Broker.Depth
import Makespan.Proofs.Broker.Opening
import Makespan.Proofs.Broker.Standstill

/-! Tasks that are over by the next tick. Then nobody is busy when a tick comes, not even where a
task ends exactly on it; so each tick but the last gives out some task, and there is at most one tick
more than there are tasks. -/

namespace Makespan.Broker

/-- Some worker was created, no task takes any created worker longer than from one tick to the next,
and the tasks do not wait for each other. -/
structure Prompt (created : WorkerId → Bool) (b : Broker) : Prop where
  some_created : ∃ w < b.pool.size, created w = true
  quick : ∀ w < b.pool.size, created w = true → ∀ k < b.scheduler.graph.size,
    (b.pool.executionTime w (b.scheduler.graph.workLength k)).rank ≤ b.cycleDelay.rank
  not_stuck : ∀ c log, SameSetup b c → ¬ Stuck created c log

/-- A broker that waits for a tick by which all is over that was given out, and that gave out a task
at each tick. -/
structure Punctual (created : WorkerId → Bool) (b : Broker) (log : List Assignment)
    (time : Time) : Prop where
  steady : Steady created b log (time, .nextCycle)
  over_by_tick : ∀ a ∈ b.unfinished log, (b.due a).rank ≤ time.rank
  ticked_le : b.ticked ≤ log.length

/-- A broker that a tick has led to by giving out some tasks. -/
structure Giving (b : Broker) (log : List Assignment) (time : Time) (c : Broker)
    (log' : List Assignment) : Prop where
  clock : c.clock = time
  ticked : c.ticked = b.ticked + 1
  executed : c.scheduler.executed = b.scheduler.executed
  executedCount : c.scheduler.executedCount = b.scheduler.executedCount
  given : ∀ a ∈ log', a ∈ log ∨ a.started = time

variable {created : WorkerId → Bool} {b b₀ c : Broker} {log log' : List Assignment} {time : Time}
  {rest : List (Time × Event)}

theorem SameSetup.prompt (h : SameSetup b c) (hb : Prompt created b) : Prompt created c where
  some_created := h.size ▸ hb.some_created
  quick w hw hc k hk := by
    rw [h.size] at hw
    rw [h.graph] at hk ⊢
    rw [h.delay, Pool.executionTime_congr (h.speed w)]
    exact hb.quick w hw hc k hk
  not_stuck d log hd := hb.not_stuck d log (h.trans hd)

/-- Where all that was given out has ended, nobody is busy. -/
theorem Accounted.busy_eq_zero (h : b.Accounted log) (hn : b.unfinished log = []) :
    b.pool.busy = 0 := by
  refine Pool.busy_eq_zero_iff.mpr fun w => Option.eq_none_iff_forall_ne_some.mpr fun k hk => ?_
  obtain ⟨a, ha, rfl, -⟩ := h.pool.held_logged w k hk
  have hm : a ∈ b.unfinished log := mem_unfinished.mpr ⟨ha, h.pool.held_unexecuted w _ hk⟩
  rw [hn] at hm
  cases hm

/-- What is given out at a tick is over by the next one. -/
theorem InCycle.due_le (h : InCycle created c log) (hprompt : Prompt created c) {a : Assignment}
    (ha : a ∈ c.unfinished log) (hs : a.started = c.clock) :
    (c.due a).rank ≤ (c.clock + c.cycleDelay).rank := by
  obtain ⟨hlt, hcreated⟩ := h.flight.worker_created ha
  have htask := h.flight.accounted.task_lt (mem_unfinished.mp ha).1
  have hdelay := h.timely.paced.delay
  have hclock := h.timely.clock
  have hduration := h.timely.paced.duration a.worker (c.scheduler.graph.workLength a.task)
  rw [Broker.due, hs, hclock.add_comm hduration, hclock.add_comm hdelay]
  exact hduration.add_le_add hdelay hclock (hprompt.quick a.worker hlt hcreated a.task htask)

namespace Giving

theorem assign (h : Giving b log time c log') (task : TaskKey) (w : WorkerId) :
    Giving b log time (c.assign ⟨c.clock, task, w⟩) (log' ++ [⟨c.clock, task, w⟩]) where
  clock := h.clock
  ticked := by
    refine Eq.trans ?_ h.ticked
    exact ticked_of_push (b := c) (e := .dispatch c.clock (c.scheduler.graph.id task) w) rfl
  executed := h.executed
  executedCount := h.executedCount
  given a ha := by
    rcases List.mem_append.mp ha with ha | ha
    · exact h.given a ha
    · rw [List.mem_singleton.mp ha]
      exact Or.inr h.clock

/-- If nothing was under way at the tick, all that is under way now began there. -/
theorem started_eq (h : Giving b log time c log') (hn : b.unfinished log = []) {a : Assignment}
    (ha : a ∈ c.unfinished log') : a.started = c.clock := by
  obtain ⟨hal, hx⟩ := mem_unfinished.mp ha
  rw [Scheduler.isExecuted, h.executed] at hx
  refine ((h.given a hal).resolve_left fun hold => ?_).trans h.clock.symm
  have hm : a ∈ b.unfinished log := mem_unfinished.mpr ⟨hold, hx⟩
  rw [hn] at hm
  cases hm

end Giving

namespace Punctual

/-- When the tick comes, nothing is under way. -/
theorem unfinished_eq_nil (h : Punctual created b log time)
    (hp : b.events.pending = (time, .nextCycle) :: rest) : b.unfinished log = [] := by
  refine List.eq_nil_iff_forall_not_mem.mpr fun a ha => ?_
  have hm : b.notice a ∈ rest :=
    (h.steady.flight.at_timer hp).pending.mem_iff.mpr (List.mem_map_of_mem ha)
  have hord := h.steady.timely.ordered
  rw [hp, List.pairwise_cons] at hord
  exact absurd (h.over_by_tick a ha) (not_le.mpr ((hord.1 _ hm).2 rfl))

/-- With work left, a tick finds a task that is ready and a worker that is idle. -/
theorem paired (h : Punctual created b log time) (hprompt : Prompt created b)
    (hp : b.events.pending = (time, .nextCycle) :: rest) (hw : b.scheduler.hasWork = true) :
    ¬ (b.scheduler.queue ++ b.scheduler.arrivals = [] ∨ b.pool.idle = []) := by
  have hflight := h.steady.flight
  have hbusy := hflight.accounted.busy_eq_zero (h.unfinished_eq_nil hp)
  rintro (hq | hi)
  · let d : Broker := { b with clock := time, events := ⟨rest⟩ }
    exact hprompt.not_stuck d.beginCycle log ((SameSetup.at_event b time ⟨rest⟩).trans (.beginCycle d))
      ⟨.beginCycle h.steady hp, hw, hbusy, (queue_beginCycle_eq_nil_iff d).mpr hq⟩
  · obtain ⟨w, hlt, hcw⟩ := hprompt.some_created
    have hm : w ∈ b.pool.idle := by
      refine hflight.accounted.pool.numbered.mem_idle_iff.mpr
        ⟨?_, Pool.busy_eq_zero_iff.mp hbusy w⟩
      rw [hflight.answered w hlt, if_pos hcw]
    rw [hi] at hm
    cases hm

/-- A tick with work left gives some out, and leads to the next tick. -/
theorem tick (h : Punctual created b log time) (hprompt : Prompt created b)
    (hp : b.events.pending = (time, .nextCycle) :: rest) (hw : b.scheduler.hasWork = true) :
    ∃ c log' time', b.advance = .running c ∧ SameSetup b c ∧ Punctual created c log' time' ∧
      c.backlog log' < b.backlog log := by
  obtain ⟨c, log', hadv, hin, hsetup, hlen, hgiving⟩ :=
    h.steady.tick_induct_of_paired hp (h.paired hprompt hp hw) (I := Giving b log time)
      (fun _ _ task _ w _ hgiving _ _ => hgiving.assign task w)
      ⟨rfl, ticked_beginCycle _, rfl, rfl, fun a ha => Or.inl ha⟩
  have hwc : c.scheduler.hasWork = true := by
    rw [Scheduler.hasWork, hsetup.graph, hgiving.executedCount]
    exact hw
  have hgoes : ¬ (c.pool.busy = 0 ∧ c.scheduler.queue = []) :=
    fun hs => hprompt.not_stuck c log' hsetup ⟨hin, hwc, hs.1, hs.2⟩
  rw [hadv, hin.settled_rearm, if_neg (by rw [hwc]; simp), if_neg hgoes]
  refine ⟨_, log', _, rfl, hsetup.trans (.schedule c _ _), ⟨hin.steady_of_rearmed, ?_, ?_⟩,
    hin.flight.accounted.backlog_lt hsetup hlen hgiving.executedCount⟩
  · intro a ha
    exact hin.due_le (hsetup.prompt hprompt) ha (hgiving.started_eq (h.unfinished_eq_nil hp) ha)
  · show c.ticked ≤ log'.length
    rw [hgiving.ticked]
    exact (Nat.succ_le_succ h.ticked_le).trans hlen

/-- A completion leads to another event before the same tick. -/
theorem completion (h : Punctual created b log time) {a : Assignment} (ha : a ∈ b.unfinished log)
    (hp : b.events.pending = b.notice a :: rest) :
    ∃ c, b.advance = .running c ∧ SameSetup b c ∧ Punctual created c log time ∧
      c.backlog log < b.backlog log := by
  have hacc := h.steady.flight.accounted
  let c : Broker := { b with clock := b.due a, events := ⟨rest⟩ }
  have hsetup : SameSetup b (c.complete a) := (SameSetup.at_event b _ _).trans (.complete c a)
  refine ⟨c.complete a, h.steady.advance_of_completion ha hp, hsetup,
    ⟨h.steady.complete ha hp, fun x hx => ?_, ?_⟩, hacc.backlog_complete_lt ha⟩
  · rw [hsetup.due]
    exact h.over_by_tick x ((hacc.mem_unfinished_complete ha).mp hx).1
  · rw [ticked_of_push (b := c) rfl]
    exact h.ticked_le

/-- An event while there is work left. -/
theorem advance (h : Punctual created b log time) (hprompt : Prompt created b)
    (hw : b.scheduler.hasWork = true) :
    ∃ c log' time', b.advance = .running c ∧ SameSetup b c ∧ Punctual created c log' time' ∧
      c.backlog log' < b.backlog log := by
  obtain ⟨e, rest, hp, rfl | ⟨a, ha, rfl⟩⟩ := h.steady.exists_next
  · exact h.tick hprompt hp hw
  · obtain ⟨c, hc⟩ := h.completion ha hp
    exact ⟨c, log, time, hc⟩

/-- With no work left the next tick is the last one. -/
theorem close (h : Punctual created b log time) (hw : b.scheduler.hasWork = false) :
    ∃ n r, b.progress n = .ended (.ok r) ∧ r.cycles ≤ b.scheduler.graph.size + 1 := by
  have hacc := h.steady.flight.accounted
  obtain ⟨e, rest, hp, rfl | ⟨a, ha, -⟩⟩ := h.steady.exists_next
  · obtain ⟨c, r, hadv, hend, -, -, -, htrace⟩ := h.steady.advance_of_done hp hw
    refine ⟨2, r, by rw [progress_of_running hadv, progress_of_ended hend], ?_⟩
    have hcycles : r.cycles = b.ticked + 1 := by
      rw [Report.cycles, ← Array.countP_toList, htrace, List.countP_append]
      rfl
    rw [hcycles]
    exact Nat.succ_le_succ (h.ticked_le.trans hacc.length_le)
  · rw [hacc.hasWork ha] at hw
    cases hw

/-- If all tasks are prompt, a run ends, with at most one tick more than there are tasks. -/
theorem ends (h : Punctual created b log time) (hprompt : Prompt created b) :
    ∃ n r, b.progress n = .ended (.ok r) ∧ r.cycles ≤ b.scheduler.graph.size + 1 := by
  -- induction on what is to be given out and to be finished
  induction hk : b.backlog log using Nat.strong_induction_on generalizing b log time with
  | _ k ih =>
    subst hk
    cases hw : b.scheduler.hasWork with
    | false => exact h.close hw
    | true =>
      obtain ⟨c, log', time', hadv, hsetup, hnext, hless⟩ := h.advance hprompt hw
      obtain ⟨n, r, hn, hcycles⟩ := ih _ hless hnext (hsetup.prompt hprompt) rfl
      rw [hsetup.graph] at hcycles
      exact ⟨n + 1, r, by rw [progress_of_running hadv, hn], hcycles⟩

end Punctual

/-- Nothing is under way at the first tick. -/
theorem Course.punctual (h : Course created b₀ (.running b)) (ho : Opened b₀ b) :
    ∃ log, Punctual created b log .zero := by
  obtain ⟨-, log, timer, hsteady⟩ := h.steady_of_scheduling ho.phase
  have hpending := hsteady.flight.pending
  rw [ho.pending] at hpending
  obtain rfl : timer = (.zero, .nextCycle) :=
    List.mem_singleton.mp (hpending.mem_iff.mpr List.mem_cons_self)
  have hnone : (b.unfinished log).map b.notice = [] :=
    List.perm_nil.mp ((List.perm_cons _).mp hpending).symm
  have hticked : b.ticked = 0 := by
    refine List.countP_eq_zero.mpr fun e he hc => ?_
    have hanswer := ho.untouched.answers e he
    cases e <;> simp_all [TraceEntry.isAnswer, TraceEntry.isCycle]
  refine ⟨log, hsteady, fun a ha => ?_, hticked ▸ Nat.zero_le _⟩
  rw [List.map_eq_nil_iff.mp hnone] at ha
  cases ha

/-- If all tasks are prompt, a run ends after its opening, with at most one tick more than there are
tasks. -/
theorem Course.ends_of_prompt (h : Course created b₀ (.running b)) (ho : Opened b₀ b)
    (hprompt : Prompt created b₀) :
    ∃ n r, b.progress n = .ended (.ok r) ∧ r.cycles ≤ b₀.scheduler.graph.size + 1 := by
  obtain ⟨log, hb⟩ := h.punctual ho
  rw [← ho.untouched.setup.graph]
  exact hb.ends (ho.untouched.setup.prompt hprompt)

end Makespan.Broker
