import Makespan.Proofs.Broker.Kept

/-! The trace as a chronicle. Its entries are in order of time; each completion tells the end of the
one dispatch of its task, at the time that its work was bound to take; and a worker is given a task
only after the completions of all that it was given before. -/

namespace Makespan

namespace Plan

/-- What an entry may tell of a job after the entries before it. -/
def Fits (plan : Plan) (before : List TraceEntry) : TraceEntry → Prop
  | .dispatch time _ w => ∀ started id, .dispatch started id w ∈ before →
      ∃ finished n, .completion finished id w started finished n ∈ before ∧
        finished.le time = true
  | .completion time id w started finished _ =>
      time = finished ∧ finished = plan.finish started id w ∧
        before.filter (fun x => x.dispatched? = some id) = [.dispatch started id w]
  | _ => True

/-- What an entry may be after the entries before it. -/
structure Records (plan : Plan) (before : List TraceEntry) (e : TraceEntry) : Prop where
  in_time : ∀ x ∈ before, x.time.le e.time = true
  fits : plan.Fits before e

end Plan

namespace Broker

variable {created : WorkerId → Bool} {b c : Broker} {log : List Assignment}

/-- A task that was assigned has one dispatch in the trace. -/
theorem Accounted.dispatches_of_task (h : b.Accounted log) {a : Assignment} (ha : a ∈ log) :
    b.trace.toList.filter (fun x => x.dispatched? = some (b.scheduler.graph.id a.task)) =
      [a.entry b.scheduler.graph] := by
  have hsplit : b.trace.toList.filter
        (fun x => x.dispatched? = some (b.scheduler.graph.id a.task)) =
      (b.trace.toList.filter (·.isDispatch)).filter
        (fun x => x.dispatched? = some (b.scheduler.graph.id a.task)) := by
    rw [List.filter_filter]
    refine List.filter_congr fun x _ => ?_
    cases x <;> simp [TraceEntry.dispatched?, TraceEntry.isDispatch]
  have hmine : log.filter (fun x => x.task = a.task) = [a] := by
    refine List.perm_singleton.mp ((List.perm_ext_iff_of_nodup ?_ (by simp)).mpr fun x => ?_)
    · exact (List.Nodup.of_map _ h.tasks_nodup).filter _
    · simp only [List.mem_filter, decide_eq_true_eq, List.mem_singleton]
      constructor
      · rintro ⟨hx, ht⟩
        exact h.eq_of_task hx ha ht
      · intro hx
        rw [hx]
        exact ⟨ha, rfl⟩
  rw [hsplit, h.trace.dispatches, List.filter_map, ← List.map_singleton, ← hmine]
  refine congrArg _ (List.filter_congr fun x hx => ?_)
  have hid : b.scheduler.graph.id x.task = b.scheduler.graph.id a.task ↔ x.task = a.task :=
    ⟨fun hid => h.scheduler.graph.id_injective (h.task_lt hx) (h.task_lt ha) hid,
      fun ht => by rw [ht]⟩
  simp [Assignment.entry, TraceEntry.dispatched?, hid]

/-- A broker whose trace is a chronicle of what has passed. -/
structure Chronicled (created : WorkerId → Bool) (b : Broker) (log : List Assignment) : Prop where
  law : Along (b.plan created).Records b.trace.toList
  past : ∀ e ∈ b.trace.toList, e.time.NonNegative ∧ e.time.rank ≤ b.clock.rank
  told : ∀ a ∈ log, b.scheduler.isExecuted a.task = true → ∃ n,
    .completion (b.due a) (b.scheduler.graph.id a.task) a.worker a.started (b.due a) n ∈
      b.trace.toList

namespace Chronicled

theorem of_no_trace (h : b.trace = #[]) : Chronicled created b [] where
  law := by
    rw [h]
    exact Along.nil
  past := by simp [h]
  told := by simp

/-- Time goes on, and an entry tells of it. -/
theorem record (h : Chronicled created b log) (hsetup : SameSetup b c) {e : TraceEntry}
    (htrace : c.trace = b.trace.push e) (he : e.time = c.clock) (hn : c.clock.NonNegative)
    (hle : b.clock.rank ≤ c.clock.rank) (hfits : (b.plan created).Fits b.trace.toList e)
    {log' : List Assignment}
    (htold : ∀ a ∈ log', c.scheduler.isExecuted a.task = true →
      a ∈ log ∧ b.scheduler.isExecuted a.task = true ∨ ∃ n, e =
        .completion (b.due a) (b.scheduler.graph.id a.task) a.worker a.started (b.due a) n) :
    Chronicled created c log' := by
  have htrace : c.trace.toList = b.trace.toList ++ [e] := by rw [htrace, Array.toList_push]
  constructor
  · rw [hsetup.plan, htrace]
    refine along_snoc_iff.mpr ⟨h.law, fun x hx => ?_, hfits⟩
    obtain ⟨hx, hpast⟩ := h.past x hx
    rw [he, hx.le_iff hn]
    exact hpast.trans hle
  · intro x hx
    rw [htrace, List.mem_append, List.mem_singleton] at hx
    rcases hx with hx | rfl
    · obtain ⟨hx, hpast⟩ := h.past x hx
      exact ⟨hx, hpast.trans hle⟩
    · rw [he]
      exact ⟨hn, le_rfl⟩
  · intro a ha hx
    rw [hsetup.due, hsetup.graph, htrace]
    rcases htold a ha hx with ⟨ha, hx⟩ | ⟨n, rfl⟩
    · obtain ⟨n, hn⟩ := h.told a ha hx
      exact ⟨n, List.mem_append_left _ hn⟩
    · exact ⟨n, by simp⟩

/-- Neither the timer nor the phase is part of the chronicle. -/
theorem of_same (h : Chronicled created b log) (hsetup : SameSetup b c)
    (hclock : c.clock = b.clock) (htrace : c.trace = b.trace)
    (hscheduler : c.scheduler = b.scheduler) : Chronicled created c log where
  law := by
    rw [hsetup.plan, htrace]
    exact h.law
  past := by
    rw [hclock, htrace]
    exact h.past
  told a ha hx := by
    rw [hsetup.due, hsetup.graph, htrace]
    rw [hscheduler] at hx
    exact h.told a ha hx

/-- All that an idle worker was given has been told finished. -/
theorem dispatch (h : Chronicled created b log) (hin : InCycle created b log) {w : WorkerId}
    (hw : b.CanTake w) {started : Time} {id : String}
    (hm : .dispatch started id w ∈ b.trace.toList) :
    ∃ finished n, .completion finished id w started finished n ∈ b.trace.toList ∧
      finished.le b.clock = true := by
  have hacc := hin.flight.accounted
  obtain ⟨a, ha, rfl, rfl, rfl⟩ := hacc.dispatch_mem_iff.mp hm
  have hx : b.scheduler.isExecuted a.task = true := by
    by_contra hx
    have hheld := hin.flight.held a (mem_unfinished.mpr ⟨ha, by simpa using hx⟩)
    rw [hw.2] at hheld
    cases hheld
  obtain ⟨n, hn⟩ := h.told a ha hx
  refine ⟨b.due a, n, hn, ?_⟩
  rw [(hin.timely.due ha).le_iff hin.timely.clock]
  exact hin.timely.passed a ha hx

theorem answerNext (h : Chronicled created b []) {n : Nat} (hb : Provisioning created b n) :
    Chronicled created (b.answerNext created n) [] := by
  have hle : b.clock.rank ≤ (b.answerNext created n).clock.rank := by
    rw [hb.clock]
    exact le_rfl
  refine h.record (.answerNext b created n) rfl rfl Binary64.zero_nonNegative hle trivial ?_
  intro a ha
  cases ha

theorem beginCycle (h : Chronicled created b log) {time : Time} {rest : List (Time × Event)}
    (hb : Steady created b log (time, .nextCycle))
    (hp : b.events.pending = (time, .nextCycle) :: rest) :
    Chronicled created { b with clock := time, events := ⟨rest⟩ }.beginCycle log := by
  obtain ⟨ht, hle⟩ := hb.timely.ahead (time, .nextCycle) (by simp [hp])
  refine h.record ((SameSetup.at_event b time ⟨rest⟩).trans (.beginCycle _)) rfl rfl ht hle
    trivial ?_
  intro a ha hx
  exact Or.inl ⟨ha, hx⟩

theorem assign (h : Chronicled created b log) (hb : InCycle created b log) {task : TaskKey}
    {rest : List TaskKey} (hq : b.scheduler.queue = task :: rest) {w : WorkerId}
    (hw : b.CanTake w) :
    Chronicled created (b.assign ⟨b.clock, task, w⟩) (log ++ [⟨b.clock, task, w⟩]) := by
  refine h.record (.assign b _) rfl rfl hb.timely.clock le_rfl (fun _ _ => h.dispatch hb hw) ?_
  intro a ha hx
  have hx : b.scheduler.isExecuted a.task = true := hx
  rcases List.mem_append.mp ha with ha | ha
  · exact Or.inl ⟨ha, hx⟩
  · obtain rfl := List.mem_singleton.mp ha
    rw [hb.flight.accounted.head_unexecuted hq] at hx
    cases hx

theorem complete (h : Chronicled created b log) {timer : Time × Event}
    (hb : Steady created b log timer) {a : Assignment} (ha : a ∈ b.unfinished log)
    {rest : List (Time × Event)} (hp : b.events.pending = b.notice a :: rest) :
    Chronicled created ({ b with clock := b.due a, events := ⟨rest⟩ }.complete a) log := by
  obtain ⟨ht, hle⟩ := hb.timely.ahead (b.notice a) (by simp [hp])
  have hacc := hb.flight.accounted
  have hal := (mem_unfinished.mp ha).1
  refine h.record ((SameSetup.at_event b _ ⟨rest⟩).trans (.complete _ a)) rfl rfl ht hle
    ⟨rfl, (hacc.finish_eq hal).symm, hacc.dispatches_of_task hal⟩ ?_
  intro x hx hxe
  rcases (Scheduler.isExecuted_finish (hacc.scheduler.executed_size ▸ hacc.task_lt hal) _).mp
    hxe with he | hxe
  · obtain rfl := hacc.eq_of_task hx hal he
    exact Or.inr ⟨_, rfl⟩
  · exact Or.inl ⟨hx, hxe⟩

theorem terminate (h : Chronicled created b log) {time : Time} {rest : List (Time × Event)}
    (hb : Steady created b log (time, .endOfSimulation))
    (hp : b.events.pending = (time, .endOfSimulation) :: rest) :
    Chronicled created { b with clock := time, events := ⟨rest⟩ }.terminate log := by
  obtain ⟨ht, hle⟩ := hb.timely.ahead (time, .endOfSimulation) (by simp [hp])
  refine h.record ((SameSetup.at_event b time ⟨rest⟩).trans (.terminate _)) rfl rfl ht hle
    trivial ?_
  intro a ha hx
  exact Or.inl ⟨ha, hx⟩

/-- The trace of a run is a chronicle. -/
theorem kept (created : WorkerId → Bool) : Kept created (Chronicled created) where
  answer hb _ h := h.answerNext hb
  opened _ h := h.of_same (.beginScheduling _) rfl rfl rfl
  tick hb hp h := h.beginCycle hb hp
  assign hb hq hw h := h.assign hb hq hw
  rearmed _ _ h := h.of_same (.schedule _ _ _) rfl rfl rfl
  done _ _ h := h.of_same (.schedule _ _ _) rfl rfl rfl
  complete hb ha hp h := h.complete hb ha hp
  terminate hb hp h := h.terminate hb hp

end Chronicled

/-- No event is behind the clock. -/
theorem Standing.ahead (h : Standing created b log) :
    ∀ e ∈ b.events.pending, b.clock.le e.1 = true := by
  intro e he
  cases h with
  | provisioning lt h =>
    rw [h.pending] at he
    obtain ⟨w, -, rfl⟩ := List.mem_map.mp he
    rw [h.clock]
    exact (Binary64.zero_nonNegative.le_iff Binary64.zero_nonNegative).mpr le_rfl
  | steady h =>
    obtain ⟨ht, hle⟩ := h.timely.ahead e he
    exact (h.timely.clock.le_iff ht).mpr hle

/-- Wherever a run stands, no event is behind the clock and the trace is a chronicle. -/
theorem Standing.progress_chronicled {b₀ : Broker} (hs : Standing created b [])
    (hsetup : SameSetup b₀ b) (ht : b.trace = #[]) (n : Nat) :
    (∀ c, b.progress n = .running c → ∀ e ∈ c.events.pending, c.clock.le e.1 = true) ∧
      ∀ trace, (b.progress n).trace? = some trace →
        Along (b₀.plan created).Records trace.toList := by
  have h := ((Chronicled.kept created).and (.sameSetup created b₀)).progress hs
    ⟨.of_no_trace ht, hsetup⟩ n
  generalize b.progress n = p at h
  cases h with
  | @running c log standing h =>
    constructor
    · intro d hd
      obtain rfl := Progress.running.inj hd
      exact standing.ahead
    · intro trace htrace
      obtain rfl := Option.some.inj htrace
      exact h.2.plan created ▸ h.1.law
  | failed e =>
    constructor
    · intro d hd
      cases hd
    · intro trace htrace
      cases htrace
  | @finished c log r h hr =>
    constructor
    · intro d hd
      cases hd
    · intro trace htrace
      obtain rfl := Option.some.inj htrace
      rw [trace_of_report hr, ← h.2.plan created]
      exact h.1.law

end Broker

end Makespan
