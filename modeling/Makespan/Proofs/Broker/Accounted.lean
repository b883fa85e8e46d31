import Makespan.Proofs.Broker.Calls
import Makespan.Proofs.Broker.Precedence

/-! Pool, scheduler, counters and trace agree on who runs what. `Accounted b log` ties them together
for a broker that made the assignments `log` so far, oldest first. Every call keeps it, whatever
events are handed in and in whatever order. -/

namespace Makespan

/-- What may stand in a trace after `before`: a task is dispatched once, after all its parents have
completed, and completes once, on a worker that it was dispatched to. -/
def Graph.Admits (g : Graph) (before : List TraceEntry) : TraceEntry → Prop
  | .dispatch _ id _ => id ∉ before.filterMap (·.dispatched?) ∧
      ∃ k < g.size, g.id k = id ∧ ∀ p ∈ g.parents k, g.id p ∈ before.filterMap (·.completed?)
  | .completion _ id worker _ _ _ => id ∉ before.filterMap (·.completed?) ∧
      ∃ time, .dispatch time id worker ∈ before
  | _ => True

def Assignment.entry (g : Graph) (a : Assignment) : TraceEntry :=
  .dispatch a.started (g.id a.task) a.worker

/-! ## The pool -/

/-- What workers hold was assigned to them and is not finished. -/
structure PoolAccount (p : Pool) (executed : TaskKey → Bool) (log : List Assignment) : Prop where
  numbered : p.Numbered
  held_available : ∀ w k, p.holds? w = some k → p.status? w = some .available
  held_logged : ∀ w k, p.holds? w = some k → ∃ a ∈ log, a.task = k ∧ a.worker = w
  held_unexecuted : ∀ w k, p.holds? w = some k → executed k = false
  held_once : ∀ v w k, p.holds? v = some k → p.holds? w = some k → v = w

namespace PoolAccount

variable {p : Pool} {executed : TaskKey → Bool} {log : List Assignment}

theorem of_nothing_held (hn : p.Numbered) (h : ∀ w, p.holds? w = none) :
    PoolAccount p executed log where
  numbered := hn
  held_available w k hw := by simp [h w] at hw
  held_logged w k hw := by simp [h w] at hw
  held_unexecuted w k hw := by simp [h w] at hw
  held_once v w k hv := by simp [h v] at hv

theorem claim (h : PoolAccount p executed log) {a : Assignment}
    (hs : p.status? a.worker = some .available) (hnew : ∀ b ∈ log, b.task ≠ a.task)
    (hne : executed a.task = false) :
    PoolAccount (p.setRunning a.worker (some a.task)) executed (log ++ [a]) := by
  have hh := Pool.holds?_setRunning (Pool.lt_of_status? hs) (r := some a.task)
  have hold : ∀ v k, v ≠ a.worker → (p.setRunning a.worker (some a.task)).holds? v = some k →
      p.holds? v = some k ∧ k ≠ a.task := fun v k hv hk => by
    rw [hh, if_neg hv] at hk
    obtain ⟨b, hb, rfl, -⟩ := h.held_logged v k hk
    exact ⟨hk, hnew b hb⟩
  have hmine : ∀ k, (p.setRunning a.worker (some a.task)).holds? a.worker = some k →
      k = a.task := fun k hk => by
    rw [hh, if_pos rfl] at hk
    exact (Option.some.inj hk).symm
  refine ⟨h.numbered.setRunning _ _, fun v k hk => ?_, fun v k hk => ?_, fun v k hk => ?_,
    fun u v k hu hv => ?_⟩
  · rw [Pool.status?_setRunning]
    by_cases hv : v = a.worker
    · rw [hv]; exact hs
    · exact h.held_available v k (hold v k hv hk).1
  · by_cases hv : v = a.worker
    · subst hv; exact ⟨a, by simp, (hmine k hk).symm, rfl⟩
    · obtain ⟨b, hb, ht⟩ := h.held_logged v k (hold v k hv hk).1
      exact ⟨b, List.mem_append_left _ hb, ht⟩
  · by_cases hv : v = a.worker
    · subst hv; rw [hmine k hk]; exact hne
    · exact h.held_unexecuted v k (hold v k hv hk).1
  · by_cases hu' : u = a.worker <;> by_cases hv' : v = a.worker
    · rw [hu', hv']
    · subst hu'; exact absurd (hmine k hu) (hold v k hv' hv).2
    · subst hv'; exact absurd (hmine k hv) (hold u k hu' hu).2
    · exact h.held_once u v k (hold u k hu' hu).1 (hold v k hv' hv).1

/-- Freeing a worker, whose task may be finished now or not. -/
theorem free (h : PoolAccount p executed log) {w : WorkerId} {k : TaskKey}
    (hw : p.holds? w = some k) {executed' : TaskKey → Bool}
    (he : ∀ j, executed' j = true → j = k ∨ executed j = true) :
    PoolAccount (p.setRunning w none) executed' log := by
  have hold : ∀ v j, (p.setRunning w none).holds? v = some j → v ≠ w ∧ p.holds? v = some j :=
    fun _ _ => (Pool.holds?_setRunning_none hw).mp
  refine ⟨h.numbered.setRunning _ _, fun v j hj => ?_, fun v j hj => ?_, fun v j hj => ?_,
    fun u v j hu hv => ?_⟩
  · rw [Pool.status?_setRunning]; exact h.held_available v j (hold v j hj).2
  · exact h.held_logged v j (hold v j hj).2
  · obtain ⟨hv, hj⟩ := hold v j hj
    by_contra hx
    rcases he j (by simpa using hx) with rfl | hx
    · exact hv (h.held_once v w j hj hw)
    · rw [h.held_unexecuted v j hj] at hx; cases hx
  · exact h.held_once u v j (hold u j hu).2 (hold v j hv).2

end PoolAccount

/-! ## The trace -/

/-- The trace tells every assignment and every finished task, in order. -/
structure TraceAccount (g : Graph) (executed : TaskKey → Bool) (count : Nat)
    (log : List Assignment) (trace : List TraceEntry) : Prop where
  dispatches : trace.filter (·.isDispatch) = log.map (·.entry g)
  completions : ∀ id, id ∈ trace.filterMap (·.completed?) ↔ ∃ k, executed k = true ∧ g.id k = id
  numbers : trace.filterMap (·.number?) = List.range' 1 count
  law : Along g.Admits trace

namespace TraceAccount

variable {g : Graph} {executed : TaskKey → Bool} {count : Nat} {log : List Assignment}
  {trace : List TraceEntry}

theorem dispatched_eq (h : TraceAccount g executed count log trace) :
    trace.filterMap (·.dispatched?) = log.map fun a => g.id a.task := by
  rw [TraceEntry.filterMap_dispatched?, h.dispatches, List.filterMap_map]
  exact congrFun List.filterMap_eq_map _

theorem mem_dispatch_iff (h : TraceAccount g executed count log trace) {time : Time} {id : String}
    {w : WorkerId} : .dispatch time id w ∈ trace ↔ ∃ a ∈ log, a.entry g = .dispatch time id w := by
  rw [← List.mem_map, ← h.dispatches, List.mem_filter]
  simp [TraceEntry.isDispatch]

/-- An entry that is neither a dispatch nor a completion. -/
theorem other (h : TraceAccount g executed count log trace) {e : TraceEntry}
    (hd : e.dispatched? = none) (hc : e.completed? = none) :
    TraceAccount g executed count log (trace ++ [e]) := by
  have hnum : e.number? = none := by cases e <;> first | rfl | cases hc
  refine ⟨?_, fun id => ?_, ?_, along_snoc_iff.mpr ⟨h.law, ?_⟩⟩
  · have hf : e.isDispatch = false := by cases e <;> first | rfl | cases hd
    rw [List.filter_append, h.dispatches]
    simp [hf]
  · rw [List.filterMap_append, ← h.completions id]
    simp [hc]
  · rw [List.filterMap_append, h.numbers]
    simp [hnum]
  · cases e <;> trivial

theorem dispatch (h : TraceAccount g executed count log trace) (hg : g.WellFormed)
    (hlog : ∀ a ∈ log, a.task < g.size) {a : Assignment} (ha : a.task < g.size)
    (hnew : ∀ b ∈ log, b.task ≠ a.task) (hp : ∀ p ∈ g.parents a.task, executed p = true) :
    TraceAccount g executed count (log ++ [a]) (trace ++ [a.entry g]) := by
  refine ⟨?_, fun id => ?_, ?_, along_snoc_iff.mpr ⟨h.law, ?_, a.task, ha, rfl, fun p hm => ?_⟩⟩
  · rw [List.filter_append, h.dispatches, List.map_append]
    rfl
  · rw [List.filterMap_append, ← h.completions id]
    simp [Assignment.entry, TraceEntry.completed?]
  · rw [List.filterMap_append, h.numbers]
    simp [Assignment.entry, TraceEntry.number?]
  · rw [h.dispatched_eq]
    intro hm
    obtain ⟨b, hb, hid⟩ := List.mem_map.mp hm
    exact hnew b hb (hg.id_injective (hlog b hb) ha hid)
  · exact (h.completions _).mpr ⟨p, hp p hm, rfl⟩

theorem complete (h : TraceAccount g executed count log trace) (hg : g.WellFormed)
    (hex : ∀ k, executed k = true → k < g.size) {k : TaskKey} {w : WorkerId} {b : Assignment}
    (hb : b ∈ log) (hbk : b.task = k) (hbw : b.worker = w) (hk : k < g.size)
    (hne : executed k = false) {executed' : TaskKey → Bool}
    (he : ∀ j, executed' j = true ↔ j = k ∨ executed j = true) (time started finished : Time) :
    TraceAccount g executed' (count + 1) log
      (trace ++ [.completion time (g.id k) w started finished (count + 1)]) := by
  refine ⟨?_, fun id => ?_, ?_, along_snoc_iff.mpr ⟨h.law, fun hm => ?_, b.started, ?_⟩⟩
  · rw [List.filter_append, h.dispatches]
    simp [TraceEntry.isDispatch]
  · rw [List.filterMap_append, List.mem_append, h.completions id]
    simp only [TraceEntry.completed?, List.filterMap_cons, List.filterMap_nil,
      List.mem_singleton, he]
    constructor
    · rintro (⟨j, hj, rfl⟩ | rfl)
      · exact ⟨j, Or.inr hj, rfl⟩
      · exact ⟨k, Or.inl rfl, rfl⟩
    · rintro ⟨j, rfl | hj, rfl⟩
      · exact Or.inr rfl
      · exact Or.inl ⟨j, hj, rfl⟩
  · rw [List.filterMap_append, h.numbers, List.range'_concat]
    simp [TraceEntry.number?, Nat.add_comm]
  · obtain ⟨j, hj, hid⟩ := (h.completions _).mp hm
    rw [hg.id_injective (hex j hj) hk hid, hne] at hj
    cases hj
  · exact h.mem_dispatch_iff.mpr ⟨b, hb, by rw [Assignment.entry, hbk, hbw]⟩

theorem dispatched_nodup (h : TraceAccount g executed count log trace) :
    (trace.filterMap (·.dispatched?)).Nodup := by
  refine (h.law.mono fun before e he x hx => ?_).nodup_filterMap
  cases e with
  | dispatch time id w => cases hx; exact he.1
  | _ => cases hx

theorem completed_nodup (h : TraceAccount g executed count log trace) :
    (trace.filterMap (·.completed?)).Nodup := by
  refine (h.law.mono fun before e he x hx => ?_).nodup_filterMap
  cases e with
  | completion time id w started finished n => cases hx; exact he.1
  | _ => cases hx

end TraceAccount

/-! ## The broker -/

namespace Broker

structure Accounted (b : Broker) (log : List Assignment) : Prop where
  scheduler : b.scheduler.Accounted (log.map (·.task))
  pool : PoolAccount b.pool b.scheduler.isExecuted log
  trace : TraceAccount b.scheduler.graph b.scheduler.isExecuted b.executed log b.trace.toList
  executed_logged : ∀ k, b.scheduler.isExecuted k = true → ∃ a ∈ log, a.task = k
  executed_eq : b.executed = b.scheduler.executedCount
  nothing_yet : b.phase = .init ∨ b.phase = .provisioning → log = []
  all_done : b.phase = .terminated → b.scheduler.hasWork = false

theorem toList_trace_record (b : Broker) (e : TraceEntry) :
    (b.record e).trace.toList = b.trace.toList ++ [e] := Array.toList_push

/-- A new broker has nothing to account for. -/
theorem new_accounted {s : Scheduler} (hs : s.Accounted []) (hne : ∀ k, s.isExecuted k = false)
    (hc : s.executedCount = 0) (label : String) (tiers : List Tier) (delay : Time) :
    (new label s tiers delay).Accounted [] where
  scheduler := hs
  pool := .of_nothing_held (Pool.ofTiers_numbered tiers) (Pool.holds?_ofTiers tiers)
  trace := ⟨rfl, fun id => by simp [new, hne], rfl, Along.nil⟩
  executed_logged k h := by simp [new, hne] at h
  executed_eq := hc.symm
  nothing_yet _ := rfl
  all_done h := by simp [new] at h

namespace Accounted

variable {b : Broker} {log : List Assignment}

theorem task_lt (h : b.Accounted log) {a : Assignment} (ha : a ∈ log) :
    a.task < b.scheduler.graph.size :=
  h.scheduler.lt_of_taken (List.mem_map_of_mem ha)

theorem executed_lt (h : b.Accounted log) {k : TaskKey} (hk : b.scheduler.isExecuted k = true) :
    k < b.scheduler.graph.size := by
  obtain ⟨a, ha, rfl⟩ := h.executed_logged k hk
  exact h.task_lt ha

theorem held_lt (h : b.Accounted log) {w : WorkerId} {k : TaskKey}
    (hw : b.pool.holds? w = some k) : k < b.scheduler.graph.size := by
  obtain ⟨a, ha, rfl, -⟩ := h.pool.held_logged w k hw
  exact h.task_lt ha

theorem tasks_nodup (h : b.Accounted log) : (log.map (·.task)).Nodup := by
  have hn := h.scheduler.nodup
  simp only [List.nodup_append] at hn
  exact hn.1.1

/-- A task is assigned once. -/
theorem eq_of_task (h : b.Accounted log) {x y : Assignment} (hx : x ∈ log) (hy : y ∈ log)
    (ht : x.task = y.task) : x = y :=
  List.inj_on_of_nodup_map h.tasks_nodup hx hy ht

/-- The next task in the queue was never assigned. -/
theorem head_new (h : b.Accounted log) {task : TaskKey} {rest : List TaskKey}
    (hq : b.scheduler.queue = task :: rest) : ∀ a ∈ log, a.task ≠ task := by
  intro a ha he
  have hm : task ∈ b.scheduler.queue := by simp [hq]
  exact (h.scheduler.not_queued (List.mem_map_of_mem ha)).1 (he ▸ hm)

theorem head_unexecuted (h : b.Accounted log) {task : TaskKey} {rest : List TaskKey}
    (hq : b.scheduler.queue = task :: rest) : b.scheduler.isExecuted task = false := by
  by_contra hx
  obtain ⟨a, ha, he⟩ := h.executed_logged task (by simpa using hx)
  exact h.head_new hq a ha he

/-! ## When no work remains -/

/-- Where no work remains, every task was executed. -/
theorem executed_of_done (h : b.Accounted log) (hw : b.scheduler.hasWork = false)
    {k : TaskKey} (hk : k < b.scheduler.graph.size) : b.scheduler.isExecuted k = true := by
  by_contra hx
  have hwork := h.scheduler.hasWork_iff.mpr ⟨k, hk, by simpa using hx⟩
  rw [hw] at hwork
  cases hwork

theorem count_of_done (h : b.Accounted log) (hw : b.scheduler.hasWork = false) :
    b.executed = b.scheduler.graph.size := by
  have hle : b.scheduler.executed.count true ≤ b.scheduler.executed.size := Array.count_le_size
  have hge : ¬ b.scheduler.executedCount < b.scheduler.graph.size := by
    simpa [Scheduler.hasWork] using hw
  rw [← h.scheduler.count, h.scheduler.executed_size] at hle
  rw [h.executed_eq]
  omega

theorem dispatched_perm (h : b.Accounted log) (hw : b.scheduler.hasWork = false) :
    (b.trace.toList.filterMap (·.dispatched?)).Perm
      ((List.range b.scheduler.graph.size).map b.scheduler.graph.id) := by
  have hperm : (log.map (·.task)).Perm (List.range b.scheduler.graph.size) := by
    refine (List.perm_ext_iff_of_nodup h.tasks_nodup List.nodup_range).mpr fun k => ?_
    rw [List.mem_range]
    constructor
    · intro hk
      obtain ⟨a, ha, rfl⟩ := List.mem_map.mp hk
      exact h.task_lt ha
    · intro hk
      obtain ⟨a, ha, rfl⟩ := h.executed_logged k (h.executed_of_done hw hk)
      exact List.mem_map_of_mem ha
  have hmap := hperm.map b.scheduler.graph.id
  rw [List.map_map] at hmap
  rw [h.trace.dispatched_eq]
  exact hmap

theorem completed_perm (h : b.Accounted log) (hw : b.scheduler.hasWork = false) :
    (b.trace.toList.filterMap (·.completed?)).Perm
      ((List.range b.scheduler.graph.size).map b.scheduler.graph.id) := by
  have hnodup : ((List.range b.scheduler.graph.size).map b.scheduler.graph.id).Nodup :=
    List.Nodup.map_on (fun j hj k hk hid => h.scheduler.graph.id_injective
      (List.mem_range.mp hj) (List.mem_range.mp hk) hid) List.nodup_range
  refine (List.perm_ext_iff_of_nodup h.trace.completed_nodup hnodup).mpr fun id => ?_
  rw [h.trace.completions, List.mem_map]
  constructor
  · rintro ⟨k, hx, rfl⟩
    exact ⟨k, List.mem_range.mpr (h.executed_lt hx), rfl⟩
  · rintro ⟨k, hk, rfl⟩
    exact ⟨k, h.executed_of_done hw (List.mem_range.mp hk), rfl⟩

/-! ## What each change keeps -/

/-- Neither the clock nor the pending events are part of the accounts. -/
theorem at_event (h : b.Accounted log) (clock : Time) (events : EventQueue Event) :
    { b with clock, events }.Accounted log := { h with }

theorem schedule (h : b.Accounted log) (time : Time) (event : Event) :
    (b.schedule time event).Accounted log := { h with }

theorem requestAll (h : b.Accounted log) (hp : b.phase = .init) (created : WorkerId → Bool) :
    (b.requestAll created).Accounted log := by
  obtain ⟨events, he⟩ := exists_requestAll_eq b created
  rw [he]
  exact { h with
    nothing_yet := fun _ => h.nothing_yet (Or.inl hp)
    all_done := fun hf => by cases hf }

theorem acknowledge (h : b.Accounted log) (hp : b.phase = .provisioning) (w : WorkerId)
    (created : Bool) : (b.acknowledge w created).Accounted log := by
  have hlog : log = [] := h.nothing_yet (Or.inr hp)
  have hnone : ∀ v, b.pool.holds? v = none := fun v => by
    refine Option.eq_none_iff_forall_ne_some.mpr fun k hk => ?_
    obtain ⟨a, ha, -⟩ := h.pool.held_logged v k hk
    simp [hlog] at ha
  exact { h with
    pool := .of_nothing_held (h.pool.numbered.setStatus w _) fun v =>
      (Pool.holds?_setStatus _ _ _ _).trans (hnone v)
    trace := by
      rw [Broker.acknowledge, toList_trace_record]
      exact h.trace.other rfl rfl }

theorem beginScheduling (h : b.Accounted log) : b.beginScheduling.Accounted log :=
  { h with
    nothing_yet := fun hp => by rcases hp with hp | hp <;> cases hp
    all_done := fun hp => by cases hp }

theorem beginCycle (h : b.Accounted log) : b.beginCycle.Accounted log :=
  { h with
    scheduler := h.scheduler.cycle
    trace := by
      rw [Broker.beginCycle, toList_trace_record]
      exact h.trace.other rfl rfl }

theorem assign (h : b.Accounted log) (hp : b.phase = .scheduling) {task : TaskKey}
    {rest : List TaskKey} (hq : b.scheduler.queue = task :: rest) {w : WorkerId}
    (hw : b.CanTake w) :
    (b.assign ⟨b.clock, task, w⟩).Accounted (log ++ [⟨b.clock, task, w⟩]) := by
  have hnew := h.head_new hq
  have hready : task ∈ log.map (·.task) ++ b.scheduler.queue := by simp [hq]
  have hlt : task < b.scheduler.graph.size :=
    ((h.scheduler.ready_iff task).mp ((h.scheduler.mem_iff task).mp
      (List.mem_append_left _ hready))).1
  refine ⟨?_, h.pool.claim hw.1 hnew (h.head_unexecuted hq), ?_, fun k hk => ?_, h.executed_eq, fun hf => ?_,
    fun hf => ?_⟩
  · rw [List.map_append]
    have ht := h.scheduler.take hq
    rwa [show rest = b.scheduler.queue.tail by rw [hq]; rfl] at ht
  · show TraceAccount _ _ _ _ (b.trace.push _).toList
    rw [Array.toList_push]
    exact h.trace.dispatch h.scheduler.graph (fun a => h.task_lt) hlt hnew
      fun p hm => h.scheduler.parents_executed hready hm
  · obtain ⟨a, ha, he⟩ := h.executed_logged k hk
    exact ⟨a, List.mem_append_left _ ha, he⟩
  · change b.phase = _ ∨ b.phase = _ at hf
    rw [hp] at hf; rcases hf with hf | hf <;> cases hf
  · change b.phase = _ at hf
    rw [hp] at hf; cases hf

theorem free (h : b.Accounted log) {w : WorkerId} {k : TaskKey}
    (hw : b.pool.holds? w = some k) : (b.free w).Accounted log :=
  { h with pool := h.pool.free hw fun _ hj => Or.inr hj }

theorem complete (h : b.Accounted log) (hp : b.phase = .scheduling) {w : WorkerId} {k : TaskKey}
    (hw : b.pool.holds? w = some k) (started : Time) :
    (b.complete ⟨started, k, w⟩).Accounted log := by
  have hlt := h.held_lt hw
  have hne := h.pool.held_unexecuted w k hw
  have hx : ∀ j, (b.scheduler.finish k).isExecuted j = true ↔
      j = k ∨ b.scheduler.isExecuted j = true :=
    Scheduler.isExecuted_finish (h.scheduler.executed_size ▸ hlt)
  obtain ⟨a, ha, hak, haw⟩ := h.pool.held_logged w k hw
  refine ⟨h.scheduler.finish hlt hne, h.pool.free hw fun j => (hx j).mp, ?_, fun j hj => ?_,
    congrArg (· + 1) h.executed_eq, fun hf => ?_, fun hf => ?_⟩
  · show TraceAccount _ _ _ _ (b.trace.push _).toList
    rw [Array.toList_push]
    exact h.trace.complete h.scheduler.graph (fun j => h.executed_lt) ha hak haw hlt hne hx _ _ _
  · rcases (hx j).mp hj with rfl | hj
    · exact ⟨a, ha, hak⟩
    · exact h.executed_logged j hj
  · change b.phase = _ ∨ b.phase = _ at hf
    rw [hp] at hf; rcases hf with hf | hf <;> cases hf
  · change b.phase = _ at hf
    rw [hp] at hf; cases hf

theorem terminate (h : b.Accounted log) (hw : b.scheduler.hasWork = false) :
    b.terminate.Accounted log :=
  { h with
    trace := by
      rw [Broker.terminate, toList_trace_record]
      exact h.trace.other rfl rfl
    nothing_yet := fun hp => by rcases hp with hp | hp <;> cases hp
    all_done := fun _ => hw }

end Accounted

end Broker

end Makespan
