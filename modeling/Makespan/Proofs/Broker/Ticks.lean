import Makespan.Proofs.Broker.Timely

/-! What a tick finds. A broker that handles its own events sees the world as if nothing happened
between ticks: ready is what was not dispatched and has all its parents over by now, and idle is
every worker without a job that is not over. -/

namespace Makespan

/-- What a run is about: the jobs, which of them wait for which, the workers that may be used, and
when a job is over that is dispatched to a worker. -/
structure Plan where
  jobs : List String
  waitsFor : String → String → Prop
  usable : WorkerId → Prop
  finish : Time → String → WorkerId → Time

namespace Plan

/-- The state of affairs at a time, told from the dispatches before it alone. -/
structure Tick (plan : Plan) (before : List TraceEntry) (time : Time) (ready : List String)
    (idle : List WorkerId) : Prop where
  ready_nodup : ready.Nodup
  mem_ready : ∀ id, id ∈ ready ↔ id ∈ plan.jobs ∧ (∀ s w, .dispatch s id w ∉ before) ∧
    ∀ p, plan.waitsFor id p →
      ∃ s w, .dispatch s p w ∈ before ∧ (plan.finish s p w).le time = true
  idle_nodup : idle.Nodup
  mem_idle : ∀ w, w ∈ idle ↔ plan.usable w ∧
    ¬ ∃ s id, .dispatch s id w ∈ before ∧ time.lt (plan.finish s id w) = true

/-- Every cycle finds what the dispatches before it tell. -/
def Allows (plan : Plan) (before : List TraceEntry) : TraceEntry → Prop
  | .cycle time ready idle => plan.Tick before time ready idle
  | _ => True

end Plan

namespace Broker

/-- What a broker is about, once it is known which workers are created. -/
def plan (b : Broker) (created : WorkerId → Bool) : Plan where
  jobs := (List.range b.scheduler.graph.size).map b.scheduler.graph.id
  waitsFor c p := ∃ k j, b.scheduler.graph.id k = c ∧ b.scheduler.graph.id j = p ∧
    j ∈ b.scheduler.graph.parents k
  usable w := w < b.pool.size ∧ created w = true
  finish s id w := s + b.pool.executionTime w
    ((b.scheduler.graph.key? id).elim 0 b.scheduler.graph.workLength)

theorem SameSetup.plan {b c : Broker} (h : SameSetup b c) (created : WorkerId → Bool) :
    c.plan created = b.plan created := by
  have hfinish : ∀ w n, c.pool.executionTime w n = b.pool.executionTime w n := fun w n =>
    Pool.executionTime_congr (h.speed w) n
  simp only [Broker.plan, h.graph, h.size, hfinish]

variable {created : WorkerId → Bool} {b : Broker} {log : List Assignment}

theorem along_record {plan : Plan} {e : TraceEntry} (h : Along plan.Allows b.trace.toList)
    (he : plan.Allows b.trace.toList e) : Along plan.Allows (b.record e).trace.toList := by
  rw [toList_trace_record]
  exact along_snoc_iff.mpr ⟨h, he⟩

theorem Accounted.finish_eq (h : b.Accounted log) {a : Assignment} (ha : a ∈ log) :
    (b.plan created).finish a.started (b.scheduler.graph.id a.task) a.worker = b.due a := by
  show a.started + b.pool.executionTime a.worker _ = _
  rw [h.scheduler.graph.key?_id (h.task_lt ha)]
  rfl

theorem Accounted.dispatch_mem_iff (h : b.Accounted log) {s : Time} {id : String} {w : WorkerId} :
    .dispatch s id w ∈ b.trace.toList ↔
      ∃ a ∈ log, a.started = s ∧ b.scheduler.graph.id a.task = id ∧ a.worker = w := by
  rw [h.trace.mem_dispatch_iff]
  simp [Assignment.entry]

/-- At a tick, what is over is exactly what was reported finished. -/
theorem Timely.executed_iff (h : b.Timely log)
    (hlate : ∀ a ∈ b.unfinished log, b.clock.rank < (b.due a).rank) {a : Assignment}
    (ha : a ∈ log) : b.scheduler.isExecuted a.task = true ↔ (b.due a).le b.clock = true := by
  rw [(h.due ha).le_iff h.clock]
  constructor
  · exact h.passed a ha
  · intro hle
    by_contra hx
    exact absurd hle (not_le.mpr (hlate a (mem_unfinished.mpr ⟨ha, by simpa using hx⟩)))

theorem Timely.unexecuted_iff (h : b.Timely log)
    (hlate : ∀ a ∈ b.unfinished log, b.clock.rank < (b.due a).rank) {a : Assignment}
    (ha : a ∈ log) : b.scheduler.isExecuted a.task = false ↔ b.clock.lt (b.due a) = true := by
  rw [h.clock.lt_iff (h.due ha), ← not_le, ← (h.due ha).le_iff h.clock, ← h.executed_iff hlate ha,
    Bool.not_eq_true]

/-- A task is ready when its parents are over. -/
theorem InFlight.mem_ready_iff (h : InFlight created b log []) (ht : b.Timely log)
    (hlate : ∀ a ∈ b.unfinished log, b.clock.rank < (b.due a).rank) (id : String) :
    id ∈ b.scheduler.cycle.queue.map b.scheduler.graph.id ↔
      id ∈ (b.plan created).jobs ∧ (∀ s w, .dispatch s id w ∉ b.trace.toList) ∧
        ∀ p, (b.plan created).waitsFor id p → ∃ s w, .dispatch s p w ∈ b.trace.toList ∧
          ((b.plan created).finish s p w).le b.clock = true := by
  have hg := h.accounted.scheduler.graph
  have hqueue : ∀ k, k ∈ b.scheduler.cycle.queue ↔ (k < b.scheduler.graph.size ∧
      ∀ p ∈ b.scheduler.graph.parents k, b.scheduler.isExecuted p = true) ∧
        k ∉ log.map (·.task) := fun k => h.accounted.scheduler.cycle.mem_queue_iff rfl
  have hover : ∀ p < b.scheduler.graph.size, b.scheduler.isExecuted p = true ↔
      ∃ s w, .dispatch s (b.scheduler.graph.id p) w ∈ b.trace.toList ∧
        ((b.plan created).finish s (b.scheduler.graph.id p) w).le b.clock = true := by
    intro p hp
    constructor
    · intro hx
      obtain ⟨a, ha, rfl⟩ := h.accounted.executed_logged p hx
      refine ⟨a.started, a.worker, h.accounted.dispatch_mem_iff.mpr ⟨a, ha, rfl, rfl, rfl⟩, ?_⟩
      rw [h.accounted.finish_eq ha]
      exact (ht.executed_iff hlate ha).mp hx
    · rintro ⟨s, w, hm, hle⟩
      obtain ⟨a, ha, rfl, hid, rfl⟩ := h.accounted.dispatch_mem_iff.mp hm
      rw [← hid, h.accounted.finish_eq ha] at hle
      rw [← hg.id_injective (h.accounted.task_lt ha) hp hid]
      exact (ht.executed_iff hlate ha).mpr hle
  constructor
  · intro hm
    obtain ⟨k, hk, rfl⟩ := List.mem_map.mp hm
    obtain ⟨⟨hlt, hpar⟩, hnew⟩ := (hqueue k).mp hk
    refine ⟨List.mem_map.mpr ⟨k, List.mem_range.mpr hlt, rfl⟩, fun s w hd => ?_, fun p hp => ?_⟩
    · obtain ⟨a, ha, -, hid, -⟩ := h.accounted.dispatch_mem_iff.mp hd
      have he := hg.id_injective (h.accounted.task_lt ha) hlt hid
      exact hnew (he ▸ List.mem_map_of_mem ha)
    · obtain ⟨k', j, hk', rfl, hj⟩ := hp
      have he := hg.id_injective (Graph.lt_of_mem_parents hj) hlt hk'
      rw [he] at hj
      exact (hover j (hg.parent_lt hj)).mp (hpar j hj)
  · rintro ⟨hjob, hnew, hpar⟩
    obtain ⟨k, hk, rfl⟩ := List.mem_map.mp hjob
    have hlt := List.mem_range.mp hk
    refine List.mem_map.mpr ⟨k, (hqueue k).mpr ⟨⟨hlt, fun j hj => ?_⟩, fun hm => ?_⟩, rfl⟩
    · exact (hover j (hg.parent_lt hj)).mpr (hpar _ ⟨k, j, rfl, rfl, hj⟩)
    · obtain ⟨a, ha, rfl⟩ := List.mem_map.mp hm
      exact hnew a.started a.worker (h.accounted.dispatch_mem_iff.mpr ⟨a, ha, rfl, rfl, rfl⟩)

/-- A worker is idle when it was created and all that it was given is over. -/
theorem InFlight.mem_idle_iff (h : InFlight created b log []) (ht : b.Timely log)
    (hlate : ∀ a ∈ b.unfinished log, b.clock.rank < (b.due a).rank) (w : WorkerId) :
    w ∈ b.pool.idle ↔ (b.plan created).usable w ∧ ¬ ∃ s id, .dispatch s id w ∈ b.trace.toList ∧
      b.clock.lt ((b.plan created).finish s id w) = true := by
  have hstatus : b.pool.status? w = some .available ↔ (b.plan created).usable w := by
    constructor
    · intro hs
      have hw := Pool.lt_of_status? hs
      rw [h.answered w hw] at hs
      refine ⟨hw, ?_⟩
      by_contra hc
      simp [hc] at hs
    · rintro ⟨hw, hc⟩
      rw [h.answered w hw, hc, if_pos rfl]
  have hholds : b.pool.holds? w = none ↔ ∀ a ∈ b.unfinished log, a.worker ≠ w := by
    constructor
    · rintro hn a ha rfl
      rw [h.held a ha] at hn
      cases hn
    · intro hall
      refine Option.eq_none_iff_forall_ne_some.mpr fun k hk => ?_
      obtain ⟨a, ha, rfl, haw⟩ := h.accounted.pool.held_logged w k hk
      have hx := h.accounted.pool.held_unexecuted w _ hk
      exact hall a (mem_unfinished.mpr ⟨ha, hx⟩) haw
  rw [h.accounted.pool.numbered.mem_idle_iff, hstatus, hholds]
  refine and_congr_right fun _ => ?_
  constructor
  · rintro hall ⟨s, id, hm, hlt⟩
    obtain ⟨a, ha, rfl, rfl, rfl⟩ := h.accounted.dispatch_mem_iff.mp hm
    rw [h.accounted.finish_eq ha, ← ht.unexecuted_iff hlate ha] at hlt
    exact hall a (mem_unfinished.mpr ⟨ha, hlt⟩) rfl
  · rintro hno a ha rfl
    obtain ⟨hal, hx⟩ := mem_unfinished.mp ha
    refine hno ⟨a.started, _, h.accounted.dispatch_mem_iff.mpr ⟨a, hal, rfl, rfl, rfl⟩, ?_⟩
    rw [h.accounted.finish_eq hal]
    exact (ht.unexecuted_iff hlate hal).mp hx

theorem InFlight.tick (h : InFlight created b log []) (ht : b.Timely log)
    (hlate : ∀ a ∈ b.unfinished log, b.clock.rank < (b.due a).rank) :
    (b.plan created).Tick b.trace.toList b.clock
      (b.scheduler.cycle.queue.map b.scheduler.graph.id) b.pool.idle where
  ready_nodup := by
    have hs := h.accounted.scheduler.cycle
    refine List.Nodup.map_on (fun j hj k hk hid => ?_) hs.queue_nodup
    exact hs.graph.id_injective ((hs.mem_queue_iff rfl).mp hj).1.1
      ((hs.mem_queue_iff rfl).mp hk).1.1 hid
  mem_ready := h.mem_ready_iff ht hlate
  idle_nodup := h.accounted.pool.numbered.idle_nodup
  mem_idle := h.mem_idle_iff ht hlate

end Broker

end Makespan
