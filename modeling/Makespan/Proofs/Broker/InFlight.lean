import Makespan.Proofs.Broker.Accounted
import Makespan.Proofs.EventQueue.Placement

/-! Nothing gets lost while a broker handles its own events. Every assignment that is not finished
is held by its worker and has its completion among the pending events, exactly once; apart from
these, only the broker's timers are pending. -/

namespace Makespan.Broker

/-- The assignments whose tasks are not finished. -/
def unfinished (b : Broker) (log : List Assignment) : List Assignment :=
  log.filter fun a => !b.scheduler.isExecuted a.task

/-- The event that an assignment ends with. -/
def notice (b : Broker) (a : Assignment) : Time × Event :=
  (b.due a, .taskFinished a.worker a.task a.started)

theorem SameSetup.notice {b c : Broker} (h : SameSetup b c) : c.notice = b.notice := by
  funext a
  rw [Broker.notice, Broker.notice, h.due]

structure InFlight (created : WorkerId → Bool) (b : Broker) (log : List Assignment)
    (timers : List (Time × Event)) : Prop where
  accounted : b.Accounted log
  phase : b.phase = .scheduling
  answered : ∀ w < b.pool.size,
    b.pool.status? w = some (if created w then .available else .failed)
  held : ∀ a ∈ b.unfinished log, b.pool.holds? a.worker = some a.task
  pending : b.events.pending.Perm (timers ++ (b.unfinished log).map b.notice)

variable {created : WorkerId → Bool} {b : Broker} {log : List Assignment}
  {timers : List (Time × Event)}

theorem mem_unfinished {a : Assignment} :
    a ∈ b.unfinished log ↔ a ∈ log ∧ b.scheduler.isExecuted a.task = false := by
  simp [unfinished]

theorem Accounted.hasWork (h : b.Accounted log) {a : Assignment} (ha : a ∈ b.unfinished log) :
    b.scheduler.hasWork = true := by
  obtain ⟨hal, hx⟩ := mem_unfinished.mp ha
  exact h.scheduler.hasWork_iff.mpr ⟨a.task, h.task_lt hal, hx⟩

/-- A completion leaves all other assignments as they are. -/
theorem Accounted.mem_unfinished_complete (h : b.Accounted log) {a x : Assignment}
    (ha : a ∈ b.unfinished log) :
    x ∈ (b.complete a).unfinished log ↔ x ∈ b.unfinished log ∧ x ≠ a := by
  obtain ⟨hal, -⟩ := mem_unfinished.mp ha
  have hx : ∀ j, (b.complete a).scheduler.isExecuted j = true ↔
      j = a.task ∨ b.scheduler.isExecuted j = true :=
    Scheduler.isExecuted_finish (h.scheduler.executed_size ▸ h.task_lt hal)
  rw [mem_unfinished, mem_unfinished, ← Bool.not_eq_true, hx, not_or, Bool.not_eq_true]
  constructor
  · intro ⟨hxl, hne, hxe⟩
    exact ⟨⟨hxl, hxe⟩, fun he => hne (congrArg _ he)⟩
  · intro ⟨⟨hxl, hxe⟩, hne⟩
    exact ⟨hxl, fun he => hne (h.eq_of_task hxl hal he), hxe⟩

theorem Accounted.unfinished_complete_perm (h : b.Accounted log) {a : Assignment}
    (ha : a ∈ b.unfinished log) :
    (b.unfinished log).Perm (a :: (b.complete a).unfinished log) := by
  have hmem := fun x => h.mem_unfinished_complete (x := x) ha
  have hlog := List.Nodup.of_map _ h.tasks_nodup
  refine (List.perm_ext_iff_of_nodup (hlog.filter _) ?_).mpr fun x => ?_
  · exact List.nodup_cons.mpr ⟨fun hm => ((hmem a).mp hm).2 rfl, hlog.filter _⟩
  · rw [List.mem_cons, hmem]
    by_cases he : x = a
    · exact ⟨fun _ => Or.inl he, fun _ => he ▸ ha⟩
    · exact ⟨fun hm => Or.inr ⟨hm, he⟩, fun hm => (hm.resolve_left he).1⟩

namespace InFlight

/-- Where nobody holds a task, all that was assigned is finished. -/
theorem executed_of_idle (h : InFlight created b log timers) (hb : b.pool.busy = 0)
    {a : Assignment} (ha : a ∈ log) : b.scheduler.isExecuted a.task = true := by
  by_contra hx
  have hh := h.held a (mem_unfinished.mpr ⟨ha, by simpa using hx⟩)
  rw [Pool.busy_eq_zero_iff.mp hb a.worker] at hh
  cases hh

/-- Only created workers are at work. -/
theorem worker_created (h : InFlight created b log timers) {a : Assignment}
    (ha : a ∈ b.unfinished log) : a.worker < b.pool.size ∧ created a.worker = true := by
  have hheld := h.held a ha
  have hlt := Pool.lt_of_holds? hheld
  have hs := h.accounted.pool.held_available a.worker a.task hheld
  rw [h.answered a.worker hlt] at hs
  refine ⟨hlt, ?_⟩
  by_contra hc
  simp [hc] at hs

/-- Where no work remains, only timers are pending. -/
theorem pending_of_no_work (h : InFlight created b log timers)
    (hw : b.scheduler.hasWork = false) : b.events.pending.Perm timers := by
  have hnone : b.unfinished log = [] := by
    refine List.eq_nil_iff_forall_not_mem.mpr fun a ha => ?_
    have hwork := h.accounted.hasWork ha
    rw [hw] at hwork
    cases hwork
  simpa [hnone] using h.pending

/-- The next event is a timer or ends an assignment. -/
theorem next_cases (h : InFlight created b log timers) {e : Time × Event}
    {rest : List (Time × Event)} (hp : b.events.pending = e :: rest) :
    e ∈ timers ∨ ∃ a ∈ b.unfinished log, b.notice a = e := by
  have hm : e ∈ b.events.pending := by simp [hp]
  rcases List.mem_append.mp (h.pending.mem_iff.mp hm) with hm | hm
  · exact Or.inl hm
  · exact Or.inr (List.mem_map.mp hm)

/-! ## What each change keeps -/

theorem beginCycle (h : InFlight created b log timers) :
    InFlight created b.beginCycle log timers :=
  { h with accounted := h.accounted.beginCycle }

theorem schedule (h : InFlight created b log timers) (time : Time) (event : Event) :
    InFlight created (b.schedule time event) log ((time, event) :: timers) :=
  { h with
    accounted := h.accounted.schedule time event
    pending := (EventQueue.place_perm time event _).trans (h.pending.cons _) }

/-- A timer goes off. -/
theorem at_timer {time : Time} {event : Event} (h : InFlight created b log [(time, event)])
    {rest : List (Time × Event)} (hp : b.events.pending = (time, event) :: rest) :
    InFlight created { b with clock := time, events := ⟨rest⟩ } log [] :=
  { h with
    accounted := h.accounted.at_event time ⟨rest⟩
    pending := by
      have hperm := h.pending
      rw [hp] at hperm
      exact (List.perm_cons _).mp hperm }

theorem assign (h : InFlight created b log timers) {task : TaskKey} {rest : List TaskKey}
    (hq : b.scheduler.queue = task :: rest) {w : WorkerId} (hw : b.CanTake w) :
    InFlight created (b.assign ⟨b.clock, task, w⟩) (log ++ [⟨b.clock, task, w⟩]) timers := by
  let a : Assignment := ⟨b.clock, task, w⟩
  have hnew : (b.assign a).unfinished (log ++ [a]) = b.unfinished log ++ [a] := by
    have hx : (!b.scheduler.isExecuted a.task) = true := by
      rw [h.accounted.head_unexecuted hq]; rfl
    have hs : [a].filter (fun a => !b.scheduler.isExecuted a.task) = [a] :=
      List.filter_eq_self.mpr fun x hm => List.mem_singleton.mp hm ▸ hx
    exact (List.filter_append _ _).trans (congrArg _ hs)
  have hnotice : (b.assign a).notice = b.notice := (SameSetup.assign b a).notice
  have hlt := Pool.lt_of_status? hw.1
  refine ⟨h.accounted.assign h.phase hq hw, h.phase, fun v hv => ?_, fun x hx => ?_, ?_⟩
  · show (b.pool.setRunning w (some task)).status? v = _
    rw [Pool.status?_setRunning]
    exact h.answered v (by rwa [(SameSetup.assign b a).size] at hv)
  · show (b.pool.setRunning w (some task)).holds? x.worker = _
    rw [hnew, List.mem_append, List.mem_singleton] at hx
    rw [Pool.holds?_setRunning hlt]
    rcases hx with hx | rfl
    · have hne : x.worker ≠ w := by
        intro he
        have hh := h.held x hx
        rw [he, hw.2] at hh
        cases hh
      rw [if_neg hne]
      exact h.held x hx
    · exact if_pos rfl
  · rw [hnew, hnotice, List.map_append, ← List.append_assoc]
    refine (EventQueue.place_perm _ _ _).trans ?_
    exact (h.pending.cons _).trans (List.perm_append_singleton _ _).symm

/-- The completion of an assignment is handled. -/
theorem complete (h : InFlight created b log timers) {a : Assignment} (ha : a ∈ b.unfinished log)
    {rest : List (Time × Event)} (hp : b.events.pending = b.notice a :: rest) :
    InFlight created ({ b with clock := b.due a, events := ⟨rest⟩ }.complete a) log timers := by
  let b' := { b with clock := b.due a, events := ⟨rest⟩ }.complete a
  have hh := h.held a ha
  have hsplit : (b.unfinished log).Perm (a :: b'.unfinished log) :=
    h.accounted.unfinished_complete_perm ha
  have hsame : SameSetup b b' := (SameSetup.at_event b _ _).trans (.complete _ a)
  have hnotice : b'.notice = b.notice := hsame.notice
  refine ⟨(h.accounted.at_event (b.due a) ⟨rest⟩).complete h.phase hh a.started, h.phase,
    fun v hv => ?_, fun x hxm => ?_, ?_⟩
  · show (b.pool.setRunning a.worker none).status? v = _
    rw [Pool.status?_setRunning]
    exact h.answered v (by rwa [hsame.size] at hv)
  · show (b.pool.setRunning a.worker none).holds? x.worker = _
    obtain ⟨hxu, hne⟩ := (h.accounted.mem_unfinished_complete ha).mp hxm
    have hxh := h.held x hxu
    have hw : x.worker ≠ a.worker := by
      intro he
      rw [he, hh] at hxh
      exact hne (h.accounted.eq_of_task (mem_unfinished.mp hxu).1 (mem_unfinished.mp ha).1
        (Option.some.inj hxh).symm)
    rw [Pool.holds?_setRunning (Pool.lt_of_holds? hh), if_neg hw]
    exact hxh
  · show rest.Perm _
    have hperm := h.pending
    rw [hp] at hperm
    have hnew := (hsplit.map b.notice).append_left timers
    rw [hnotice]
    exact (List.perm_cons _).mp (hperm.trans (hnew.trans List.perm_middle))

end InFlight

end Makespan.Broker
