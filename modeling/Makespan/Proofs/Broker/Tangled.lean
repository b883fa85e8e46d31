import Makespan.Proofs.Broker.Run

/-! Tasks that wait for each other. What is on a cycle, or behind one, is never dispatched; everything
else is, and is executed before a run gives up. So a run with such tasks can only end at a tick, when
nobody is busy and just these tasks remain. -/

namespace Makespan

/-- A task on or behind a cycle waits for one that waits too, and so neither of them ever begins. -/
theorem Graph.tangled_absent {g : Graph} (hg : g.WellFormed) {trace : List TraceEntry}
    (h : Along g.Admits trace) : ∀ k, g.Tangled k →
      g.id k ∉ trace.filterMap (·.dispatched?) ∧ g.id k ∉ trace.filterMap (·.completed?) := by
  induction trace using List.reverseRecOn with
  | nil => simp
  | append_singleton before e ih =>
    obtain ⟨hbefore, he⟩ := along_snoc_iff.mp h
    have hall := ih hbefore
    intro k hk
    have hold := hall k hk
    have hother : e.dispatched? ≠ some (g.id k) ∧ e.completed? ≠ some (g.id k) := by
      cases e with
      | dispatch time id w =>
        refine ⟨fun hid => ?_, by simp [TraceEntry.completed?]⟩
        obtain ⟨-, j, hj, rfl, hpar⟩ := he
        obtain rfl := hg.id_injective hj hk.lt_size (Option.some.inj hid)
        obtain ⟨i, hi, hti⟩ := hk.exists_parent
        exact (hall i hti).2 (hpar i hi)
      | completion time id w started finished n =>
        refine ⟨by simp [TraceEntry.dispatched?], fun hid => ?_⟩
        obtain rfl := Option.some.inj hid
        obtain ⟨-, s, hs⟩ := he
        exact hold.1 (List.mem_filterMap.mpr ⟨_, hs, rfl⟩)
      | _ => simp [TraceEntry.dispatched?, TraceEntry.completed?]
    simp only [List.filterMap_append, List.mem_append, not_or]
    exact ⟨⟨hold.1, by simpa using hother.1⟩, hold.2, by simpa using hother.2⟩

namespace Broker

variable {created : WorkerId → Bool} {b₀ b : Broker} {log : List Assignment}

theorem Accounted.not_tangled (h : b.Accounted log) {a : Assignment} (ha : a ∈ log) :
    ¬ b.scheduler.graph.Tangled a.task := by
  intro htangled
  refine (Graph.tangled_absent h.scheduler.graph h.trace.law a.task htangled).1 ?_
  rw [h.trace.dispatched_eq]
  exact List.mem_map_of_mem ha

theorem Accounted.hasWork_of_tangled (h : b.Accounted log) {k : TaskKey}
    (hk : b.scheduler.graph.Tangled k) : b.scheduler.hasWork = true := by
  refine h.scheduler.hasWork_iff.mpr ⟨k, hk.lt_size, ?_⟩
  by_contra hx
  obtain ⟨a, ha, rfl⟩ := h.executed_logged k (by simpa using hx)
  exact h.not_tangled ha hk

/-- Where a broker cannot go on, it has executed what is clear of cycles. -/
theorem Stuck.executed_iff (h : Stuck created b log) {k : TaskKey}
    (hk : k < b.scheduler.graph.size) :
    b.scheduler.isExecuted k = true ↔ ¬ b.scheduler.graph.Tangled k := by
  constructor
  · intro hx
    obtain ⟨a, ha, rfl⟩ := h.cycle.flight.accounted.executed_logged k hx
    exact h.cycle.flight.accounted.not_tangled ha
  · exact h.executed_of_clear hk

theorem Stuck.remaining_eq (h : Stuck created b log) :
    b.scheduler.remaining = {k | b.scheduler.graph.Tangled k}.ncard := by
  rw [h.cycle.flight.accounted.scheduler.remaining_eq]
  congr 1
  ext k
  constructor
  · intro ⟨hk, hx⟩
    by_contra hclear
    rw [(h.executed_iff hk).mpr hclear] at hx
    cases hx
  · intro htangled
    refine ⟨htangled.lt_size, ?_⟩
    by_contra hx
    exact (h.executed_iff htangled.lt_size).mp (by simpa using hx) htangled

/-- A run that has ended was ended by some event. -/
theorem exists_last_event {n : Nat} {result : Except Error Report}
    (h : b.progress n = .ended result) :
    ∃ m c, b.progress m = .running c ∧ c.advance = .ended result := by
  induction n generalizing b with
  | zero => cases h
  | succ n ih =>
    cases ha : b.advance with
    | ended result' =>
      rw [progress_of_ended ha] at h
      obtain rfl := Progress.ended.inj h
      exact ⟨0, b, rfl, ha⟩
    | running d =>
      rw [progress_of_running ha] at h
      obtain ⟨m, c, hm, hc⟩ := ih h
      exact ⟨m + 1, c, (progress_of_running ha m).trans hm, hc⟩

/-- While tasks wait for each other, the event that ends a run is a tick. -/
theorem Steady.stuck_of_ended {timer : Time × Event} (h : Steady created b log timer)
    (hcycle : ∃ k, b.scheduler.graph.Tangled k) {result : Except Error Report}
    (hend : b.advance = .ended result) :
    ∃ time rest c log', b.events.pending = (time, .nextCycle) :: rest ∧
      { b with clock := time, events := ⟨rest⟩ }.step .nextCycle =
        ⟨c, some (.stalled time c.scheduler.remaining)⟩ ∧
      result = .error (.stalled time c.scheduler.remaining) ∧ SameSetup b c ∧
      Stuck created c log' := by
  obtain ⟨k, hk⟩ := hcycle
  have hwork := h.flight.accounted.hasWork_of_tangled hk
  obtain ⟨e, rest, hp, rfl | ⟨a, ha, rfl⟩⟩ := h.exists_next
  · obtain ⟨time, event⟩ := e
    rcases h.timer_cases with rfl | ⟨-, hdone⟩
    · let d : Broker := { b with clock := time, events := ⟨rest⟩ }
      have hnumbered := h.flight.accounted.pool.numbered
      obtain ⟨c, log', hserved, hin, hsetup, hclock⟩ := (InCycle.beginCycle h hp).serve
        (I := fun c _ => c.clock = time) hnumbered.idle_nodup
        (fun w hw => hnumbered.mem_idle_iff.mp hw) (fun _ _ _ _ _ _ hc _ _ => hc) rfl
      have hsetup : SameSetup b c :=
        ((SameSetup.at_event b time ⟨rest⟩).trans (.beginCycle d)).trans hsetup
      have hwork : c.scheduler.hasWork = true :=
        hin.flight.accounted.hasWork_of_tangled (k := k) (by rwa [hsetup.graph])
      have hstep := h.step_of_served hserved
      rw [h.advance_of_served hp hserved, hin.settled_rearm, if_neg (by rw [hwork]; simp)] at hend
      rw [rearm_eq, if_neg (by rw [hwork]; simp)] at hstep
      by_cases hs : c.pool.busy = 0 ∧ c.scheduler.queue = []
      · rw [if_pos hs, hclock] at hend hstep
        exact ⟨time, rest, c, log', hp, hstep, (Progress.ended.inj hend).symm, hsetup,
          hin, hwork, hs.1, hs.2⟩
      · rw [if_neg hs] at hend
        cases hend
    · rw [hwork] at hdone
      cases hdone
  · rw [h.advance_of_completion ha hp] at hend
    cases hend

end Broker

end Makespan
