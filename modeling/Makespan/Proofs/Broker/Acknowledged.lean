import Makespan.Proofs.Broker.Accounted

/-! Answers to creation requests. The broker counts them, and begins to schedule once there are as
many as workers; it does not look at which workers they are for. If some worker is answered for
twice, another one may still be waited for by then, and that one stays out for good. -/

namespace Makespan

/-- The worker whose creation request was answered. -/
def TraceEntry.answered? : TraceEntry → Option WorkerId
  | acknowledged _ w _ _ => some w
  | _ => none

namespace Broker

/-- The workers that were answered for, in the order of the answers. -/
def answered (b : Broker) : List WorkerId := b.trace.toList.filterMap (·.answered?)

/-- The provisioning is over. -/
def Begun (b : Broker) : Prop := b.phase = .scheduling ∨ b.phase = .terminated

variable {b c d : Broker}

/-- What tells of no answer may be added to the trace. -/
theorem answered_of_push {e : TraceEntry} (ht : c.trace = b.trace.push e)
    (he : e.answered? = none) : c.answered = b.answered := by
  rw [answered, ht, Array.toList_push, List.filterMap_append, List.filterMap_cons_none he,
    List.filterMap_nil, List.append_nil, answered]

theorem answered_acknowledge (b : Broker) (w : WorkerId) (created : Bool) :
    (b.acknowledge w created).answered = b.answered ++ [w] := by
  rw [answered, acknowledge, toList_trace_record, List.filterMap_append]
  rfl

/-! ## Changes that have nothing to do with any answer -/

structure SameAnswers (b c : Broker) : Prop where
  numbered : b.pool.Numbered → c.pool.Numbered
  count : c.acknowledged = b.acknowledged
  answered : c.answered = b.answered
  size : c.pool.size = b.pool.size
  status : ∀ w, c.pool.status? w = b.pool.status? w

namespace SameAnswers

theorem refl (b : Broker) : SameAnswers b b := ⟨id, rfl, rfl, rfl, fun _ => rfl⟩

theorem trans (h : SameAnswers b c) (h' : SameAnswers c d) : SameAnswers b d :=
  ⟨h'.numbered ∘ h.numbered, h'.count.trans h.count, h'.answered.trans h.answered,
    h'.size.trans h.size, fun w => (h'.status w).trans (h.status w)⟩

theorem schedule (b : Broker) (time : Time) (event : Event) :
    SameAnswers b (b.schedule time event) := ⟨id, rfl, rfl, rfl, fun _ => rfl⟩

theorem requestAll (b : Broker) (created : WorkerId → Bool) :
    SameAnswers b (b.requestAll created) := by
  obtain ⟨events, he⟩ := exists_requestAll_eq b created
  rw [he]
  exact ⟨id, rfl, rfl, rfl, fun _ => rfl⟩

theorem beginScheduling (b : Broker) : SameAnswers b b.beginScheduling :=
  ⟨id, rfl, rfl, rfl, fun _ => rfl⟩

theorem beginCycle (b : Broker) : SameAnswers b b.beginCycle :=
  ⟨id, rfl, answered_of_push rfl rfl, rfl, fun _ => rfl⟩

theorem assign (b : Broker) (a : Assignment) : SameAnswers b (b.assign a) :=
  ⟨fun h => h.setRunning _ _, rfl, answered_of_push rfl rfl, Pool.size_setRunning _ _ _,
    fun _ => Pool.status?_setRunning _ _ _ _⟩

theorem free (b : Broker) (w : WorkerId) : SameAnswers b (b.free w) :=
  ⟨fun h => h.setRunning _ _, rfl, rfl, Pool.size_setRunning _ _ _,
    fun _ => Pool.status?_setRunning _ _ _ _⟩

theorem complete (b : Broker) (a : Assignment) : SameAnswers b (b.complete a) :=
  ⟨fun h => h.setRunning _ _, rfl, answered_of_push rfl rfl, Pool.size_setRunning _ _ _,
    fun _ => Pool.status?_setRunning _ _ _ _⟩

theorem terminate (b : Broker) : SameAnswers b b.terminate :=
  ⟨id, rfl, answered_of_push rfl rfl, rfl, fun _ => rfl⟩

theorem usable_eq_zero_iff (h : SameAnswers b c) : c.pool.usable = 0 ↔ b.pool.usable = 0 := by
  simp only [Pool.usable_eq_zero_iff, h.status]

end SameAnswers

/-! ## Once the scheduling has begun -/

namespace Begun

theorem step (h : b.Begun) (hn : b.pool.Numbered) (event : Event) :
    SameAnswers b (b.step event).broker ∧ (b.step event).broker.Begun := by
  rcases h with hp | hp
  · cases event with
    | workerCreated w created =>
      simp only [Broker.step, hp]
      exact ⟨.refl b, Or.inl hp⟩
    | nextCycle =>
      rw [step_nextCycle hp]
      obtain ⟨c, hc, hsame, hphase⟩ := handleCycle_induct hn
        (I := fun c => SameAnswers b c ∧ c.phase = .scheduling)
        (fun c task rest w hc _ _ => ⟨hc.1.trans (.assign c _), hc.2⟩) ⟨.beginCycle b, hp⟩
      rw [hc, rearm_eq]
      split
      · exact ⟨hsame, Or.inl hphase⟩
      · split
        · exact ⟨hsame, Or.inl hphase⟩
        · exact ⟨hsame.trans (.schedule c _ _), Or.inl hphase⟩
    | taskFinished w task started =>
      rw [step_taskFinished hp]
      rcases handleFinished_cases b w task started with hb | hb | hb <;> rw [hb]
      · exact ⟨.refl b, Or.inl hp⟩
      · exact ⟨.free b w, Or.inl hp⟩
      · exact ⟨.complete b _, Or.inl hp⟩
    | endOfSimulation =>
      rw [step_endOfSimulation hp, handleEnd_eq]
      split
      · exact ⟨.refl b, Or.inl hp⟩
      · exact ⟨.terminate b, Or.inr rfl⟩
  · simp only [Broker.step, hp]
    exact ⟨.refl b, Or.inr hp⟩

theorem call (h : b.Begun) (hn : b.pool.Numbered) (c : Call) :
    SameAnswers b (b.call c).broker ∧ (b.call c).broker.Begun := by
  cases c with
  | step event => exact h.step hn event
  | start created =>
    have hp : b.phase ≠ .init := by rcases h with hp | hp <;> simp [hp]
    rw [Broker.call, start_of_started hp]
    exact ⟨.refl b, h⟩

/-- Whatever is called then, no answer is taken any more. -/
theorem after (h : b.Begun) (hn : b.pool.Numbered) (calls : List Call) :
    SameAnswers b (b.after calls) := by
  have hall := after_induct (I := fun c => SameAnswers b c ∧ c.Begun) (fun c call hc => ?_)
    ⟨.refl b, h⟩ calls
  · exact hall.1
  · obtain ⟨hsame, hbegun⟩ := hc.2.call (hc.1.numbered hn) call
    exact ⟨hc.1.trans hsame, hbegun⟩

end Begun

/-! ## The answers and the pool -/

/-- The pool waits for the workers that were not answered for. -/
structure Tallied (b : Broker) : Prop where
  numbered : b.pool.Numbered
  count : b.acknowledged = b.answered.length
  known : ∀ w ∈ b.answered, w < b.pool.size
  requested_iff : ∀ w < b.pool.size, b.pool.status? w = some .requested ↔ w ∉ b.answered

namespace Tallied

/-- Nobody was answered for yet. -/
theorem new (label : String) (s : Scheduler) (tiers : List Tier) (delay : Time) :
    Tallied (.new label s tiers delay) where
  numbered := Pool.ofTiers_numbered tiers
  count := rfl
  known w hw := by cases hw
  requested_iff w hw := by
    obtain ⟨x, hx⟩ := Pool.exists_worker hw
    have hx : (Pool.ofTiers tiers).worker? w = some x := hx
    simp [Broker.new, answered, Pool.status?, hx, (Pool.worker?_ofTiers hx).2.1]

theorem same (h : Tallied b) (hs : SameAnswers b c) : Tallied c where
  numbered := hs.numbered h.numbered
  count := by rw [hs.count, hs.answered, h.count]
  known w hw := hs.size ▸ h.known w (hs.answered ▸ hw)
  requested_iff w hw := by
    rw [hs.status, hs.answered]
    exact h.requested_iff w (hs.size ▸ hw)

/-- An answer for a worker, be it the first for that worker or not. -/
theorem acknowledge (h : Tallied b) {w : WorkerId} (hw : w < b.pool.size) (created : Bool) :
    Tallied (b.acknowledge w created) where
  numbered := h.numbered.setStatus w _
  count := by
    rw [answered_acknowledge, List.length_append, ← h.count]
    rfl
  known v hv := by
    rw [(SameSetup.acknowledge b w created).size]
    rw [answered_acknowledge, List.mem_append, List.mem_singleton] at hv
    exact hv.elim (h.known v) (· ▸ hw)
  requested_iff v hv := by
    rw [(SameSetup.acknowledge b w created).size] at hv
    rw [answered_acknowledge]
    change (b.pool.setStatus w _).status? v = _ ↔ _
    rw [Pool.status?_setStatus hw]
    by_cases hvw : v = w
    · cases created <;> simp [hvw]
    · simp [hvw, h.requested_iff v hv]

/-- Some worker is waited for exactly if fewer workers than there are were answered for, each of
them counted once. -/
theorem exists_requested_iff (h : Tallied b) :
    (∃ w, b.pool.status? w = some .requested) ↔ b.answered.dedup.length < b.pool.size := by
  have hsub : b.answered.dedup ⊆ List.range b.pool.size := fun w hw =>
    List.mem_range.mpr (h.known w (List.mem_dedup.mp hw))
  have hperm := List.subperm_of_subset (List.nodup_dedup b.answered) hsub
  constructor
  · rintro ⟨w, hw⟩
    have hlt := Pool.lt_of_status? hw
    by_contra hge
    have hle : (List.range b.pool.size).length ≤ b.answered.dedup.length := by
      rw [List.length_range]
      exact not_lt.mp hge
    have hmem := (hperm.perm_of_length_le hle).mem_iff.mpr (List.mem_range.mpr hlt)
    exact (h.requested_iff w hlt).mp hw (List.mem_dedup.mp hmem)
  · intro hlt
    by_contra hnone
    push Not at hnone
    have hall : List.range b.pool.size ⊆ b.answered.dedup := fun w hw => by
      have hw := List.mem_range.mp hw
      by_contra hmem
      exact hnone w ((h.requested_iff w hw).mpr fun hm => hmem (List.mem_dedup.mpr hm))
    have hle := (List.subperm_of_subset List.nodup_range hall).length_le
    rw [List.length_range] at hle
    omega

end Tallied

/-! ## Every call -/

/-- The scheduling begins with as many answers as there are workers, as soon as any of them can be
used. -/
structure Answered (b : Broker) : Prop extends Tallied b where
  waiting : ¬ b.Begun → b.acknowledged < b.pool.size ∨ b.pool.usable = 0
  begun : b.Begun → b.pool.size ≤ b.acknowledged

namespace Answered

theorem new (label : String) (s : Scheduler) (tiers : List Tier) (delay : Time) :
    Answered (.new label s tiers delay) where
  toTallied := .new label s tiers delay
  waiting _ := Or.inr <| Pool.usable_eq_zero_iff.mpr fun w hw => by
    have hr := ((Tallied.new label s tiers delay).requested_iff w (Pool.lt_of_status? hw)).mpr
      List.not_mem_nil
    rw [hw] at hr
    cases hr
  begun h := by rcases h with h | h <;> cases h

theorem same (h : Answered b) (hs : SameAnswers b c) (hb : c.Begun ↔ b.Begun) : Answered c where
  toTallied := h.toTallied.same hs
  waiting hc := by
    rw [hs.count, hs.size, hs.usable_eq_zero_iff]
    exact h.waiting (hb.not.mp hc)
  begun hc := by
    rw [hs.count, hs.size]
    exact h.begun (hb.mp hc)

theorem handleCreated (h : Answered b) (hp : b.phase = .provisioning) (w : WorkerId)
    (created : Bool) : Answered (b.handleCreated w created).broker := by
  by_cases hw : w < b.pool.size
  · have ht := h.toTallied.acknowledge hw created
    have hnot : ¬ (b.acknowledge w created).Begun := by
      rintro (hb | hb) <;> exact nomatch hp.symm.trans hb
    have hsize := (SameSetup.acknowledge b w created).size
    rw [handleCreated_of_lt hw]
    split_ifs with hlt hu
    · exact ⟨ht, fun _ => Or.inl (hsize ▸ hlt), fun hb => absurd hb hnot⟩
    · exact ⟨ht, fun _ => Or.inr hu, fun hb => absurd hb hnot⟩
    · refine ⟨ht.same (.beginScheduling _), fun hb => absurd (Or.inl rfl) hb, fun _ => ?_⟩
      change (b.acknowledge w created).pool.size ≤ b.acknowledged + 1
      rw [hsize]
      exact not_lt.mp hlt
  · rw [handleCreated_of_not_lt hw]
    exact h

theorem call (h : Answered b) (c : Call) : Answered (b.call c).broker := by
  by_cases hb : b.Begun
  · obtain ⟨hsame, hbegun⟩ := hb.call h.numbered c
    exact h.same hsame (iff_of_true hbegun hb)
  · cases c with
    | start created =>
      by_cases hp : b.phase = .init
      · rw [Broker.call, start_answering hp]
        refine h.same (.requestAll b created) (iff_of_false ?_ hb)
        simp [Begun]
      · rw [Broker.call, start_of_started hp]
        exact h
    | step event =>
      cases hp : b.phase with
      | init =>
        simp only [Broker.call, Broker.step, hp]
        exact h
      | provisioning =>
        cases event with
        | workerCreated w created =>
          simp only [Broker.call, Broker.step, hp]
          exact h.handleCreated hp w created
        | _ =>
          simp only [Broker.call, Broker.step, hp]
          exact h
      | scheduling => exact absurd (Or.inl hp) hb
      | terminated => exact absurd (Or.inr hp) hb

theorem after (h : Answered b) (calls : List Call) : Answered (b.after calls) :=
  after_induct (fun _ c hb => hb.call c) h calls

end Answered

/-- Which workers are waited for, for every pool and after any calls: those that were not answered
for. The broker does not begin to schedule before there are as many answers as workers, but the same
worker may be counted twice; then some worker is still waited for, and no call changes that any
more. Where every worker is answered for at most once, none is. -/
theorem begins_with_as_many_answers (s : Scheduler) (label : String) (tiers : List Tier)
    (delay : Time) (calls : List Call) :
    let b := (new label s tiers delay).after calls
    (∀ w < b.pool.size, b.pool.status? w = some .requested ↔ w ∉ b.answered) ∧
    (¬ b.Begun → b.answered.length < b.pool.size ∨ b.pool.usable = 0) ∧
    (b.Begun → b.pool.size ≤ b.answered.length ∧
      ((∃ w, b.pool.status? w = some .requested) ↔ b.answered.dedup.length < b.pool.size) ∧
      (b.answered.Nodup → ∀ w, b.pool.status? w ≠ some .requested) ∧
      ∀ more w, (b.after more).pool.status? w = b.pool.status? w) := by
  intro b
  have h : Answered b := (Answered.new label s tiers delay).after calls
  refine ⟨h.requested_iff, fun hb => h.count ▸ h.waiting hb, fun hb => ?_⟩
  have hle : b.pool.size ≤ b.answered.length := h.count ▸ h.begun hb
  refine ⟨hle, h.exists_requested_iff, fun hn w hw => ?_, fun more w => ?_⟩
  · have hlt := h.exists_requested_iff.mp ⟨w, hw⟩
    rw [hn.dedup] at hlt
    omega
  · exact (hb.after h.numbered more).status w

/-- A broker for one task and a pool of two, of which the first is answered for twice. -/
def answeredTwice (s : Scheduler) : Broker :=
  (new "pair" s [⟨1, 2⟩] 1).after
    [.start fun _ => true, .step (.workerCreated 0 true), .step (.workerCreated 0 true)]

/-- The scheduling has begun while the second worker is waited for; its answer is refused. -/
theorem begins_while_worker_requested : ∃ s,
    Scheduler.new (.ofDeclarations [.task (.new "a" "" "" 1 1)]) .shortestFirst = .ok s ∧
      (answeredTwice s).phase = .scheduling ∧
      (answeredTwice s).pool.status? 1 = some .requested ∧
      ((answeredTwice s).step (.workerCreated 1 true)).error? =
        some (.invalidTransition .scheduling .workerCreated) := by
  have hrun : (Scheduler.new (.ofDeclarations [.task (.new "a" "" "" 1 1)])
      .shortestFirst).toOption.map (fun s =>
        ((answeredTwice s).phase, (answeredTwice s).pool.status? 1,
          ((answeredTwice s).step (.workerCreated 1 true)).error?)) =
      some (.scheduling, some .requested, some (.invalidTransition .scheduling .workerCreated)) := by
    decide +kernel
  cases hs : Scheduler.new (.ofDeclarations [.task (.new "a" "" "" 1 1)]) .shortestFirst with
  | error e =>
    rw [hs] at hrun
    cases hrun
  | ok s =>
    rw [hs] at hrun
    have hall := Option.some.inj hrun
    simp only [Prod.mk.injEq] at hall
    exact ⟨s, rfl, hall⟩

end Broker

end Makespan
