import Makespan.Proofs.Broker.Ticks

/-! Provisioning. All workers are asked for at once, and the answers come in the order of their
ids, before any time has passed; the last one starts the scheduling or ends the run. -/

namespace Makespan.Broker

variable {created : WorkerId → Bool} {b : Broker}

/-- An answer to a creation request, as it is scheduled. -/
def answer (created : WorkerId → Bool) (w : WorkerId) : Time × Event :=
  (.zero, .workerCreated w (created w))

/-- The answers for the workers from number `n` on. -/
def answersFrom (created : WorkerId → Bool) (n size : Nat) : List (Time × Event) :=
  (List.range' n (size - n)).map (answer created)

/-- The broker after the answer for worker `n`, which is the next one. -/
def answerNext (b : Broker) (created : WorkerId → Bool) (n : WorkerId) : Broker :=
  { b with clock := .zero, events := ⟨answersFrom created (n + 1) b.pool.size⟩ }.acknowledge n
    (created n)

theorem SameSetup.answerNext (b : Broker) (created : WorkerId → Bool) (n : WorkerId) :
    SameSetup b (b.answerNext created n) :=
  (SameSetup.at_event b _ _).trans (.acknowledge _ n (created n))

/-- A broker that has taken the answers for the workers below `n`. -/
structure Provisioning (created : WorkerId → Bool) (b : Broker) (n : Nat) : Prop where
  accounted : b.Accounted []
  paced : b.Paced
  phase : b.phase = .provisioning
  clock : b.clock = .zero
  acknowledged : b.acknowledged = n
  answered : ∀ w < n, b.pool.status? w = some (if created w then .available else .failed)
  pending : b.events.pending = answersFrom created n b.pool.size
  ticks : Along (b.plan created).Allows b.trace.toList

theorem requestAll_pending (hp : b.pool.Numbered) (hc : b.clock = .zero)
    (he : b.events.pending = []) :
    (b.requestAll created).events.pending = answersFrom created 0 b.pool.size := by
  have hfold : ∀ (ws : List Worker) (c : Broker), c.clock = .zero →
      (∀ e ∈ c.events.pending, e.1 = .zero) →
      (ws.foldl (fun b w => b.schedule b.clock (.workerCreated w.id (created w.id)))
        c).events.pending = c.events.pending ++ ws.map fun w => answer created w.id := by
    intro ws
    induction ws with
    | nil => exact fun c _ _ => (List.append_nil _).symm
    | cons w ws ih =>
      intro c hc hz
      have hplace : (c.schedule c.clock (.workerCreated w.id (created w.id))).events.pending =
          c.events.pending ++ [answer created w.id] := by
        rw [answer, ← hc]
        exact EventQueue.place_last fun e he => by rw [hz e he, hc]
      have hrest := ih (c.schedule c.clock (.workerCreated w.id (created w.id))) hc fun e he => by
        rw [hplace] at he
        rcases List.mem_append.mp he with he | he
        · exact hz e he
        · rw [List.mem_singleton.mp he]; rfl
      rw [hplace, List.append_assoc] at hrest
      exact hrest
  have hids : b.pool.workers.toList.map (fun w => answer created w.id) =
      (List.range b.pool.size).map (answer created) := by
    rw [← hp.ids, List.map_map]; rfl
  have hall := hfold b.pool.workers.toList { b with phase := .provisioning } hc
    (fun e hm => by rw [he] at hm; cases hm)
  rw [hids, List.range_eq_range', he] at hall
  rw [requestAll, ← Array.foldl_toList]
  exact hall

namespace Provisioning

theorem requestAll (h : b.Accounted []) (hp : b.phase = .init) (hpaced : b.Paced)
    (hc : b.clock = .zero) (he : b.events.pending = []) (ha : b.acknowledged = 0)
    (ht : b.trace = #[]) : Provisioning created (b.requestAll created) 0 := by
  have hpending : (b.requestAll created).events.pending = _ :=
    requestAll_pending h.pool.numbered hc he
  have hacc := h.requestAll hp created
  have hpace := (SameSetup.requestAll b created).paced hpaced
  obtain ⟨events, hr⟩ := exists_requestAll_eq b created
  rw [hr] at hpending hacc hpace ⊢
  exact
    { accounted := hacc
      paced := hpace
      phase := rfl
      clock := hc
      acknowledged := ha
      answered := fun w hw => absurd hw (Nat.not_lt_zero w)
      pending := hpending
      ticks := by
        show Along _ b.trace.toList
        rw [ht]
        exact Along.nil }

variable {n : Nat}

/-- The next event answers for the next worker. -/
theorem next (h : Provisioning created b n) (hn : n < b.pool.size) :
    b.events.pending = answer created n :: answersFrom created (n + 1) b.pool.size := by
  have hcount : b.pool.size - n = b.pool.size - (n + 1) + 1 := by omega
  rw [h.pending, answersFrom, hcount, List.range'_succ]
  rfl

theorem answerNext (h : Provisioning created b n) (hn : n < b.pool.size) :
    Provisioning created (b.answerNext created n) (n + 1) := by
  let c : Broker := { b with clock := .zero, events := ⟨answersFrom created (n + 1) b.pool.size⟩ }
  have hsame : SameSetup b (c.acknowledge n (created n)) := .answerNext b created n
  exact
    { accounted := (h.accounted.at_event c.clock c.events).acknowledge h.phase n (created n)
      paced := hsame.paced h.paced
      phase := h.phase
      clock := rfl
      acknowledged := congrArg (· + 1) h.acknowledged
      answered := fun w hw => by
        show (b.pool.setStatus n _).status? w = _
        rw [Pool.status?_setStatus hn]
        by_cases he : w = n
        · rw [if_pos he, he]
        · rw [if_neg he]
          exact h.answered w (lt_of_le_of_ne (Nat.lt_succ_iff.mp hw) he)
      pending := congrArg (answersFrom created (n + 1)) hsame.size.symm
      ticks := by
        show Along ((c.acknowledge n (created n)).plan created).Allows _
        rw [hsame.plan]
        exact along_record h.ticks trivial }

/-- At the end it is known whether there is any worker. -/
theorem usable_eq_zero_iff (h : Provisioning created b b.pool.size) :
    b.pool.usable = 0 ↔ ∀ w < b.pool.size, created w = false := by
  rw [Pool.usable_eq_zero_iff]
  constructor
  · intro hno w hw
    have hs := hno w
    rw [h.answered w hw] at hs
    by_contra hc
    exact hs (by simp [hc])
  · intro hno w hs
    have hw := Pool.lt_of_status? hs
    rw [h.answered w hw, hno w hw] at hs
    simp at hs

/-- Once all have answered, the scheduling begins with a first tick. -/
theorem beginScheduling (h : Provisioning created b b.pool.size) :
    InFlight created b.beginScheduling [] [(.zero, .nextCycle)] ∧ b.beginScheduling.Timely [] := by
  have hnone : b.events.pending = [] := by rw [h.pending, answersFrom, Nat.sub_self]; rfl
  have hpending : b.beginScheduling.events.pending = [(.zero, .nextCycle)] := by
    show EventQueue.place b.clock _ b.events.pending = _
    rw [hnone, h.clock]; rfl
  constructor
  · exact
      { accounted := h.accounted.beginScheduling
        phase := rfl
        answered := h.answered
        held := fun a ha => by simp [unfinished] at ha
        pending := by rw [hpending]; exact .refl _ }
  · refine ⟨(SameSetup.beginScheduling b).paced h.paced, ?_, fun a ha => by simp at ha, ?_, ?_,
      fun a ha => by simp at ha⟩
    · show b.clock.NonNegative
      rw [h.clock]; exact Binary64.zero_nonNegative
    · rw [hpending]; exact List.pairwise_singleton _ _
    · rw [hpending]
      intro e he
      rw [List.mem_singleton.mp he]
      refine ⟨Binary64.zero_nonNegative, ?_⟩
      show b.clock.rank ≤ _
      rw [h.clock]

end Provisioning

end Makespan.Broker
