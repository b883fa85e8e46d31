import Makespan.Proofs.Broker.Run

/-! The opening of a run. Answers to creation requests tell the pool which workers there are, and
change nothing else; after the last one the scheduling begins, and no time has passed. -/

namespace Makespan

/-- Whether an entry tells of an answer to a creation request. -/
def TraceEntry.isAnswer : TraceEntry → Bool
  | acknowledged _ _ _ _ => true
  | _ => false

namespace Broker

variable {created : WorkerId → Bool} {b₀ b : Broker} {n : Nat}

/-- A broker for which nothing happened but answers to creation requests. -/
structure Untouched (b₀ b : Broker) : Prop where
  setup : SameSetup b₀ b
  scheduler : b.scheduler = b₀.scheduler
  executed : b.executed = b₀.executed
  lastCompletion : b.lastCompletion = b₀.lastCompletion
  holds : ∀ w, b.pool.holds? w = b₀.pool.holds? w
  answers : ∀ e ∈ b.trace.toList, e.isAnswer = true

namespace Untouched

theorem requestAll (ht : b.trace = #[]) (created : WorkerId → Bool) :
    Untouched b (b.requestAll created) := by
  have hsetup := SameSetup.requestAll b created
  obtain ⟨events, he⟩ := exists_requestAll_eq b created
  rw [he] at hsetup ⊢
  refine ⟨hsetup, rfl, rfl, rfl, fun _ => rfl, fun e hm => ?_⟩
  have hm : e ∈ b.trace.toList := hm
  rw [ht] at hm
  cases hm

theorem answerNext (h : Untouched b₀ b) (created : WorkerId → Bool) (n : WorkerId) :
    Untouched b₀ (b.answerNext created n) where
  setup := h.setup.trans (.answerNext b created n)
  scheduler := h.scheduler
  executed := h.executed
  lastCompletion := h.lastCompletion
  holds w := (Pool.holds?_setStatus _ _ _ _).trans (h.holds w)
  answers e he := by
    rcases List.mem_append.mp (Array.toList_push ▸ he) with he | he
    · exact h.answers e he
    · rw [List.mem_singleton.mp he]
      rfl

theorem beginScheduling (h : Untouched b₀ b) : Untouched b₀ b.beginScheduling :=
  { h with setup := h.setup.trans (.beginScheduling b) }

end Untouched

/-- A broker that is about to handle its first tick. -/
structure Opened (b₀ b : Broker) : Prop where
  untouched : Untouched b₀ b
  phase : b.phase = .scheduling
  clock : b.clock = .zero
  pending : b.events.pending = [(.zero, .nextCycle)]

/-- If there is any worker, the scheduling begins after the last answer: what each answer keeps holds
by then. -/
theorem Provisioning.open_induct {I : Broker → Nat → Prop}
    (hI : ∀ b n, Provisioning created b n → n < b.pool.size → I b n →
      I (b.answerNext created n) (n + 1))
    (h : Provisioning created b n) (hn : n < b.pool.size) (h₀ : I b n)
    (hc : ∃ w < b.pool.size, created w = true) :
    ∃ d, b.progress (b.pool.size - n) = .running d.beginScheduling ∧
      Provisioning created d d.pool.size ∧ I d d.pool.size := by
  obtain ⟨k, hk⟩ : ∃ k, b.pool.size = n + k + 1 := ⟨b.pool.size - n - 1, by omega⟩
  rw [show b.pool.size - n = k + 1 by omega]
  -- induction on the number of answers to come after the next one
  induction k generalizing b n with
  | zero =>
    have hsize : (b.answerNext created n).pool.size = n + 1 :=
      (SameSetup.answerNext b created n).size.trans hk
    have hd := h.answerNext hn
    have hlast := hI b n h hn h₀
    rw [← hsize] at hd hlast
    have husable : (b.answerNext created n).pool.usable ≠ 0 := by
      intro hz
      obtain ⟨w, hw, hcw⟩ := hc
      rw [hd.usable_eq_zero_iff.mp hz w (by omega)] at hcw
      cases hcw
    have hadv : b.advance = .running (b.answerNext created n).beginScheduling := by
      rw [h.advance_eq hn, if_neg (by omega), if_neg husable]
    exact ⟨_, progress_of_running hadv 0, hd, hlast⟩
  | succ k ih =>
    have hsize : (b.answerNext created n).pool.size = b.pool.size :=
      (SameSetup.answerNext b created n).size
    have hadv : b.advance = .running (b.answerNext created n) := by
      rw [h.advance_eq hn, if_pos (by omega)]
    rw [progress_of_running hadv]
    exact ih (h.answerNext hn) (by omega) (hI b n h hn h₀) (by rwa [hsize]) (by omega)

/-- If there is any worker, the first tick follows the last answer. -/
theorem Provisioning.opens (h : Provisioning created b n) (hn : n < b.pool.size)
    (hu : Untouched b₀ b) (hc : ∃ w < b.pool.size, created w = true) :
    ∃ d, b.progress (b.pool.size - n) = .running d ∧ Opened b₀ d := by
  obtain ⟨d, hprogress, hd, hud⟩ := h.open_induct (I := fun b _ => Untouched b₀ b)
    (fun b n _ _ hu => hu.answerNext created n) hn hu hc
  have hnone : d.events.pending = [] := by
    rw [hd.pending, answersFrom, Nat.sub_self]
    rfl
  refine ⟨_, hprogress, hud.beginScheduling, rfl, hd.clock, ?_⟩
  show EventQueue.place _ _ d.events.pending = _
  rw [hnone, hd.clock]
  rfl

/-- A run on course that has just been started opens, if there is any worker. -/
theorem Course.opens (h : Course created b₀ (.running b)) (hp : b.phase = .provisioning)
    (hu : Untouched b₀ b) (hc : ∃ w < b₀.pool.size, created w = true) :
    ∃ m d, b.progress m = .running d ∧ Opened b₀ d := by
  cases h with
  | @provisioning _ n setup lt h =>
    obtain ⟨d, hd, ho⟩ := h.opens lt hu (setup.size ▸ hc)
    exact ⟨b.pool.size - n, d, hd, ho⟩
  | steady setup some_created h =>
    rw [h.flight.phase] at hp
    cases hp

end Broker

end Makespan
