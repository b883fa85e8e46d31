import Makespan.Proofs.Broker.Accounted

/-! Dependency order dominates everything else. Whatever calls are made on a broker, in whatever
order and with whatever events, its accounts stay in order; so a task is dispatched only after its
parents have completed, and pool, scheduler, counters and trace never disagree. -/

namespace Makespan

/-- The failures that only a broker with wrong accounts could run into. -/
def Error.isInternal : Error → Bool
  | .workerNotIdle _ _ _ => true
  | .alreadyExecuted _ => true
  | _ => false

namespace Broker

/-- An outcome of a call on `b` that leaves accounts behind and no internal failure. -/
structure Settles (b : Broker) (o : Outcome) : Prop where
  accounted : ∃ log, o.broker.Accounted log
  setup : SameSetup b o.broker
  error : ∀ e, o.error? = some e → e.isInternal = false

theorem settles_ok {b c : Broker} (hs : SameSetup b c) {log : List Assignment}
    (h : c.Accounted log) : Settles b ⟨c, none⟩ := ⟨⟨log, h⟩, hs, fun _ he => by cases he⟩

theorem settles_error {b c : Broker} (hs : SameSetup b c) {log : List Assignment}
    (h : c.Accounted log) {e : Error} (he : e.isInternal = false) : Settles b ⟨c, some e⟩ :=
  ⟨⟨log, h⟩, hs, fun _ hx => Option.some.inj hx ▸ he⟩

theorem Settles.of_sameSetup {b c : Broker} {o : Outcome} (hs : SameSetup b c)
    (h : Settles c o) : Settles b o := ⟨h.accounted, hs.trans h.setup, h.error⟩

namespace Accounted

variable {b : Broker} {log : List Assignment}

theorem handleCreated_settles (h : b.Accounted log) (hp : b.phase = .provisioning) (w : WorkerId)
    (created : Bool) : Settles b (b.handleCreated w created) := by
  by_cases hw : w < b.pool.size
  · have ha := h.acknowledge hp w created
    have hs := SameSetup.acknowledge b w created
    rw [handleCreated_of_lt hw]
    split
    · exact settles_ok hs ha
    · split
      · exact settles_error hs ha rfl
      · exact settles_ok (hs.trans (.beginScheduling _)) ha.beginScheduling
  · rw [handleCreated_of_not_lt hw]
    exact settles_error (.refl b) h rfl

theorem rearm_settles (h : b.Accounted log) : Settles b b.rearm := by
  rw [rearm_eq]
  split
  · exact settles_ok (.refl b) h
  · split
    · exact settles_error (.refl b) h rfl
    · exact settles_ok (.schedule b _ _) (h.schedule _ _)

theorem handleCycle_settles (h : b.Accounted log) (hp : b.phase = .scheduling) :
    Settles b b.handleCycle := by
  obtain ⟨c, hc, ⟨log', h'⟩, -, hs⟩ := handleCycle_induct h.pool.numbered
    (I := fun c => (∃ log, c.Accounted log) ∧ c.phase = .scheduling ∧ SameSetup b c)
    (fun c task rest w hc hq hw => by
      obtain ⟨⟨log, hc⟩, hcp, hs⟩ := hc
      exact ⟨⟨_, hc.assign hcp hq hw⟩, hcp, hs.trans (.assign c _)⟩)
    ⟨⟨log, h.beginCycle⟩, hp, .beginCycle b⟩
  rw [hc]
  exact h'.rearm_settles.of_sameSetup hs

theorem handleFinished_settles (h : b.Accounted log) (hp : b.phase = .scheduling) (w : WorkerId)
    (task : TaskKey) (started : Time) : Settles b (b.handleFinished w task started) := by
  cases hw : b.pool.holds? w with
  | none =>
    rw [handleFinished_of_free hw]
    exact settles_error (.refl b) h (by split <;> rfl)
  | some held =>
    by_cases he : held = task
    · subst he
      rw [handleFinished_of_held hw (h.pool.held_unexecuted w held hw)]
      exact settles_ok (.complete b _) (h.complete hp hw started)
    · rw [handleFinished_of_other hw he]
      exact settles_error (.free b w) (h.free hw) rfl

theorem handleEnd_settles (h : b.Accounted log) : Settles b b.handleEnd := by
  rw [handleEnd_eq]
  cases hw : b.scheduler.hasWork with
  | true => exact settles_error (.refl b) h rfl
  | false => exact settles_ok (.terminate b) (h.terminate hw)

/-- Every event is handled with the accounts in order, one that is refused included. -/
theorem step_settles (h : b.Accounted log) (event : Event) : Settles b (b.step event) := by
  cases hp : b.phase <;> cases event <;> simp only [step, hp]
  case provisioning.workerCreated w created => exact h.handleCreated_settles hp w created
  case scheduling.nextCycle => exact h.handleCycle_settles hp
  case scheduling.taskFinished w task started => exact h.handleFinished_settles hp w task started
  case scheduling.endOfSimulation => exact h.handleEnd_settles
  all_goals exact settles_error (.refl b) h rfl

theorem call_settles (h : b.Accounted log) (c : Call) : Settles b (b.call c) := by
  cases c with
  | step event => exact h.step_settles event
  | start created =>
    by_cases hp : b.phase = .init
    · simp only [call, start_answering hp]
      exact settles_ok (.requestAll b created) (h.requestAll hp created)
    · simp only [call, start_of_started hp]
      exact settles_error (.refl b) h rfl

theorem after {b : Broker} (h : b.Accounted []) (calls : List Call) :
    (∃ log, (b.after calls).Accounted log) ∧ SameSetup b (b.after calls) :=
  after_induct (I := fun c => (∃ log, c.Accounted log) ∧ SameSetup b c)
    (fun _ c ⟨⟨_, h⟩, hs⟩ => ⟨(h.call_settles c).accounted, hs.trans (h.call_settles c).setup⟩)
    ⟨⟨[], h⟩, .refl b⟩ calls

end Accounted

/-- Graphs of one outline admit the same traces. -/
theorem admits_of_outline {g g' : Graph} (h : g'.outline = g.outline) (before : List TraceEntry)
    (e : TraceEntry) : g'.Admits before e ↔ g.Admits before e := by
  cases e <;> simp only [Graph.Admits, Graph.size_of_outline h, Graph.id_of_outline h,
    Graph.parents_of_outline h]

/-- What a scheduler for a declared graph starts a broker with. -/
theorem new_accounted_of_declarations (ds : List Graph.Declaration) (policy : Policy) :
    ∃ s, Scheduler.new (.ofDeclarations ds) policy = .ok s ∧
      s.graph.outline = (Graph.ofDeclarations ds).outline ∧
      ∀ label tiers delay, (new label s tiers delay).Accounted [] := by
  obtain ⟨s, hs, ho, -, ha, hne, hc⟩ := Scheduler.new_ok (Graph.ofDeclarations_wellFormed ds)
    (Graph.preprocessed_ofDeclarations ds) policy
  exact ⟨s, hs, ho, new_accounted ha hne hc⟩

/-- Dependencies come first. For every graph, cyclic ones included, and every policy and pool: after
any calls, each dispatch in the trace is preceded by completions of all parents of its task, each
completion by a dispatch of its task to its worker, and no task is dispatched or completed twice. -/
theorem trace_respects_dependencies (ds : List Graph.Declaration) (policy : Policy) :
    ∃ s, Scheduler.new (.ofDeclarations ds) policy = .ok s ∧
      ∀ (label : String) (tiers : List Tier) (delay : Time) (calls : List Call),
        let trace := ((new label s tiers delay).after calls).trace.toList
        Along (Graph.ofDeclarations ds).Admits trace ∧
          (trace.filterMap (·.dispatched?)).Nodup ∧ (trace.filterMap (·.completed?)).Nodup := by
  obtain ⟨s, hs, ho, hn⟩ := new_accounted_of_declarations ds policy
  refine ⟨s, hs, fun label tiers delay calls => ?_⟩
  obtain ⟨⟨log, h⟩, hsetup⟩ := (hn label tiers delay).after calls
  have hlaw := h.trace.law
  rw [hsetup.graph] at hlaw
  exact ⟨hlaw.mono fun before e => (admits_of_outline ho before e).mp, h.trace.dispatched_nodup,
    h.trace.completed_nodup⟩

/-! ## Agreement -/

/-- Pool, scheduler, counters and trace of a broker tell the same story. -/
structure Agrees (b : Broker) : Prop where
  held_once : ∀ v w k, b.pool.holds? v = some k → b.pool.holds? w = some k → v = w
  held_unexecuted : ∀ w k, b.pool.holds? w = some k →
    k < b.scheduler.graph.size ∧ b.scheduler.isExecuted k = false
  held_not_waiting : ∀ w k, b.pool.holds? w = some k →
    k ∉ b.scheduler.queue ∧ k ∉ b.scheduler.arrivals
  held_available : ∀ w k, b.pool.holds? w = some k → b.pool.status? w = some .available
  executed_eq : b.executed = b.scheduler.executedCount
  flagged : b.scheduler.executed.count true = b.executed
  completions : (b.trace.toList.filterMap (·.completed?)).length = b.executed
  /-- The completions are numbered from 1 in order. -/
  numbers : b.trace.toList.filterMap (·.number?) = List.range' 1 b.executed
  all_done : b.phase = .terminated →
    ∀ k < b.scheduler.graph.size, b.scheduler.isExecuted k = true
  claims_succeed : ∀ event w status running,
    (b.step event).error? ≠ some (.workerNotIdle w status running)
  notices_succeed : ∀ event id, (b.step event).error? ≠ some (.alreadyExecuted id)

theorem Accounted.agrees {b : Broker} {log : List Assignment} (h : b.Accounted log) :
    b.Agrees where
  held_once := h.pool.held_once
  held_unexecuted w k hw := ⟨h.held_lt hw, h.pool.held_unexecuted w k hw⟩
  held_not_waiting w k hw := by
    obtain ⟨a, ha, rfl, -⟩ := h.pool.held_logged w k hw
    exact h.scheduler.not_queued (List.mem_map_of_mem ha)
  held_available := h.pool.held_available
  executed_eq := h.executed_eq
  flagged := by rw [h.executed_eq, h.scheduler.count]
  completions := by
    rw [← TraceEntry.length_filterMap_number?, h.trace.numbers, List.length_range']
  numbers := h.trace.numbers
  all_done hp k hk := h.executed_of_done (h.all_done hp) hk
  claims_succeed event w status running he := by
    cases (h.step_settles event).error _ he
  notices_succeed event id he := by
    cases (h.step_settles event).error _ he

/-- The accounts agree after any calls, for every graph, policy and pool. In particular no claim of
a worker and no notice of a completion ever fails inside a handler. -/
theorem accounts_always_agree (ds : List Graph.Declaration) (policy : Policy) :
    ∃ s, Scheduler.new (.ofDeclarations ds) policy = .ok s ∧
      ∀ (label : String) (tiers : List Tier) (delay : Time) (calls : List Call),
        ((new label s tiers delay).after calls).Agrees := by
  obtain ⟨s, hs, -, hn⟩ := new_accounted_of_declarations ds policy
  refine ⟨s, hs, fun label tiers delay calls => ?_⟩
  obtain ⟨⟨log, h⟩, -⟩ := (hn label tiers delay).after calls
  exact h.agrees

end Broker

end Makespan
