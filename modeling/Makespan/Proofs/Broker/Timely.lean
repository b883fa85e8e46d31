import Makespan.Proofs.Binary64.Order
import Makespan.Proofs.Broker.InFlight

/-! Time never runs backwards. The pending events are in order, none is before the clock, and a tick
stands behind every other event of its time: so what ends on a tick has ended when the tick is
handled. -/

namespace Makespan.Broker

open Binary64

/-- The order of pending events; nothing of the same time is behind a tick. -/
def Before (x y : Time × Event) : Prop :=
  x.1.rank ≤ y.1.rank ∧ (x.2 = .nextCycle → x.1.rank < y.1.rank)

/-- Neither the timer nor any work takes less than no time. -/
structure Paced (b : Broker) : Prop where
  delay : b.cycleDelay.NonNegative
  duration : ∀ w n, (b.pool.executionTime w n).NonNegative

theorem SameSetup.paced {b c : Broker} (h : SameSetup b c) (hb : b.Paced) : c.Paced where
  delay := h.delay ▸ hb.delay
  duration w n := by
    rw [Pool.executionTime_congr (h.speed w)]
    exact hb.duration w n

structure Timely (b : Broker) (log : List Assignment) : Prop where
  paced : b.Paced
  clock : b.clock.NonNegative
  started : ∀ a ∈ log, a.started.NonNegative
  ordered : b.events.pending.Pairwise Before
  ahead : ∀ e ∈ b.events.pending, e.1.NonNegative ∧ b.clock.rank ≤ e.1.rank
  passed : ∀ a ∈ log, b.scheduler.isExecuted a.task = true → (b.due a).rank ≤ b.clock.rank

namespace Timely

variable {created : WorkerId → Bool} {b : Broker} {log : List Assignment}
  {timers : List (Time × Event)}

theorem due (h : b.Timely log) {a : Assignment} (ha : a ∈ log) : (b.due a).NonNegative :=
  ((h.started a ha).add (h.paced.duration _ _)).1

/-! ## What each change keeps -/

theorem beginCycle (h : b.Timely log) : b.beginCycle.Timely log :=
  { h with paced := (SameSetup.beginCycle b).paced h.paced }

/-- The clock moves to the next event. -/
theorem at_next (h : b.Timely log) {time : Time} {event : Event} {rest : List (Time × Event)}
    (hp : b.events.pending = (time, event) :: rest) :
    { b with clock := time, events := ⟨rest⟩ }.Timely log := by
  obtain ⟨hn, hle⟩ := h.ahead (time, event) (by simp [hp])
  have hord := h.ordered
  rw [hp, List.pairwise_cons] at hord
  exact { h with
    paced := (SameSetup.at_event b time ⟨rest⟩).paced h.paced
    clock := hn
    ordered := hord.2
    ahead := fun e he => ⟨(h.ahead e (by simp [hp, he])).1, (hord.1 e he).1⟩
    passed := fun a ha hx => (h.passed a ha hx).trans hle }

/-- While no tick is pending, anything can be scheduled from the clock on. -/
theorem schedule (h : b.Timely log) (hq : ∀ e ∈ b.events.pending, e.2 ≠ .nextCycle)
    {time : Time} (ht : time.NonNegative) (hle : b.clock.rank ≤ time.rank) (event : Event) :
    (b.schedule time event).Timely log :=
  { h with
    paced := (SameSetup.schedule b time event).paced h.paced
    ordered := EventQueue.place_pairwise (fun _ _ hxy => hxy.1) h.ordered
      (fun e he hr => ⟨hr, fun hc => absurd hc (hq e he)⟩)
      (fun e _ hr => ⟨hr.le, fun _ => hr⟩)
    ahead := fun e he => by
      rcases List.mem_cons.mp ((EventQueue.place_perm _ _ _).mem_iff.mp he) with rfl | he
      · exact ⟨ht, hle⟩
      · exact h.ahead e he }

theorem assign (h : b.Timely log) (hq : ∀ e ∈ b.events.pending, e.2 ≠ .nextCycle)
    {task : TaskKey} (hx : b.scheduler.isExecuted task = false) (w : WorkerId) :
    (b.assign ⟨b.clock, task, w⟩).Timely (log ++ [⟨b.clock, task, w⟩]) := by
  let a : Assignment := ⟨b.clock, task, w⟩
  have hsame := SameSetup.assign b a
  obtain ⟨hdue, hle⟩ := h.clock.add (h.paced.duration w (b.scheduler.graph.workLength task))
  have hs := h.schedule hq hdue hle (.taskFinished w task b.clock)
  refine ⟨hsame.paced h.paced, h.clock, fun x hm => ?_, hs.ordered, hs.ahead, fun x hm hxe => ?_⟩
  · rcases List.mem_append.mp hm with hm | hm
    · exact h.started x hm
    · rw [List.mem_singleton.mp hm]; exact h.clock
  · rw [hsame.due]
    rcases List.mem_append.mp hm with hm | hm
    · exact h.passed x hm hxe
    · rw [List.mem_singleton.mp hm] at hxe
      have hxe : b.scheduler.isExecuted task = true := hxe
      rw [hx] at hxe
      cases hxe

/-- A task may be reported finished once its time has come. -/
theorem complete (h : b.Timely log) (hacc : b.Accounted log) {a : Assignment} (ha : a ∈ log)
    (hdue : (b.due a).rank ≤ b.clock.rank) : (b.complete a).Timely log := by
  have hsame := SameSetup.complete b a
  refine ⟨hsame.paced h.paced, h.clock, h.started, h.ordered, h.ahead, fun x hm hxe => ?_⟩
  rw [hsame.due]
  rcases (Scheduler.isExecuted_finish (hacc.scheduler.executed_size ▸ hacc.task_lt ha) _).mp hxe
    with he | hxe
  · rw [hacc.eq_of_task hm ha he]; exact hdue
  · exact h.passed x hm hxe

end Timely

end Makespan.Broker
