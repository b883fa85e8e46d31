import Makespan.Proofs.Broker.Precedence
import Makespan.Proofs.Scheduler.Accounted

/-! Schedulers and their histories. A history lists the calls made on a scheduler with what they
gave. It tells by itself which tasks are ready and where each of them is, whatever order tasks are
reported finished in. -/

namespace Makespan

/-- The children of a task that wait for no other task once `finished` are, in the order in which
their edges were declared. -/
def Graph.unlocks (g : Graph) (finished : List TaskKey) (k : TaskKey) : List TaskKey :=
  (g.children k).filter fun c => (g.parents c).all fun p => p = k ∨ p ∈ finished

theorem Graph.WellFormed.mem_unlocks_iff {g : Graph} (hg : g.WellFormed) {finished : List TaskKey}
    {k c : TaskKey} : c ∈ g.unlocks finished k ↔
      k ∈ g.parents c ∧ ∀ p ∈ g.parents c, p = k ∨ p ∈ finished := by
  simp only [unlocks, List.mem_filter, List.all_eq_true, decide_eq_true_eq, hg.mirror k c]

namespace Scheduler

/-- A call on a scheduler with so many tasks. Any of them may be reported finished. -/
inductive Call (tasks : Nat) where
  | cycle
  | take
  | notify (k : Fin tasks)

/-- A call and what it gave. -/
inductive Entry where
  | cycled
  | took (k? : Option TaskKey)
  | finished (k : TaskKey) (released : List TaskKey)
  | refused (k : TaskKey) (error : Error)

namespace Entry

def taken? : Entry → Option TaskKey
  | took k? => k?
  | _ => none

def finished? : Entry → Option TaskKey
  | finished k _ => some k
  | _ => none

def released : Entry → List TaskKey
  | finished _ ks => ks
  | _ => []

end Entry

/-- The tasks that were taken, in order. -/
def taken (history : List Entry) : List TaskKey := history.filterMap (·.taken?)

/-- The tasks that were reported finished, in order. -/
def finished (history : List Entry) : List TaskKey := history.filterMap (·.finished?)

/-- The tasks that were released, in order. -/
def released (history : List Entry) : List TaskKey := history.flatMap (·.released)

theorem taken_snoc (history : List Entry) (e : Entry) :
    taken (history ++ [e]) = taken history ++ e.taken?.toList := by
  rw [taken, List.filterMap_append]
  cases h : e.taken? <;> simp [taken, h]

theorem finished_snoc (history : List Entry) (e : Entry) :
    finished (history ++ [e]) = finished history ++ e.finished?.toList := by
  rw [finished, List.filterMap_append]
  cases h : e.finished? <;> simp [finished, h]

theorem released_snoc (history : List Entry) (e : Entry) :
    released (history ++ [e]) = released history ++ e.released := by simp [released]

/-- The scheduler as a call leaves it, refused or not, and what the call tells. -/
def call {n : Nat} (s : Scheduler) : Call n → Scheduler × Entry
  | .cycle => (s.cycle, .cycled)
  | .take =>
    match s.take? with
    | none => (s, .took none)
    | some (k, s') => (s', .took (some k))
  | .notify k =>
    match s.notify k with
    | (s', .ok released) => (s', .finished k released)
    | (s', .error e) => (s', .refused k e)

/-- The scheduler after some calls, and their history. -/
def after {n : Nat} (s : Scheduler) (calls : List (Call n)) : Scheduler × List Entry :=
  calls.foldl (fun state c => ((state.1.call c).1, state.2 ++ [(state.1.call c).2])) (s, [])

/-- What holds of a scheduler with an empty history and is kept by every call holds after any
calls. -/
theorem after_induct {n : Nat} {I : Scheduler → List Entry → Prop}
    (hI : ∀ s history (c : Call n), I s history → I (s.call c).1 (history ++ [(s.call c).2]))
    {s : Scheduler} (h : I s []) (calls : List (Call n)) :
    I (s.after calls).1 (s.after calls).2 := by
  suffices hall : ∀ state : Scheduler × List Entry, I state.1 state.2 →
      I (calls.foldl (fun state c => ((state.1.call c).1, state.2 ++ [(state.1.call c).2])) state).1
        (calls.foldl (fun state c => ((state.1.call c).1, state.2 ++ [(state.1.call c).2]))
          state).2 from hall (s, []) h
  induction calls with
  | nil => exact fun state hs => hs
  | cons c calls ih => exact fun state hs => ih _ (hI _ _ c hs)

end Scheduler

open Scheduler in
/-- What a history may go on with. A task is taken once and after all its parents have finished; it
is reported finished once, and then releases the children of which it is the last parent. -/
def Graph.Permits (g : Graph) (before : List Entry) : Entry → Prop
  | .cycled => True
  | .took none => True
  | .took (some k) => k ∉ taken before ∧ ∀ p ∈ g.parents k, p ∈ finished before
  | .finished k released => k ∉ finished before ∧ released = g.unlocks (finished before) k
  | .refused k e => k ∈ finished before ∧ e = .alreadyExecuted (g.id k)

namespace Scheduler

/-- A scheduler with the history that led to it. -/
structure Recorded (s : Scheduler) (history : List Entry) : Prop where
  accounted : s.Accounted (taken history)
  executed_iff : ∀ k, s.isExecuted k = true ↔ k ∈ finished history
  released_nodup : (released history).Nodup
  released_iff : ∀ k, k ∈ released history ↔ s.isReady k = true ∧ s.graph.parents k ≠ []
  law : Along s.graph.Permits history

namespace Recorded

variable {s : Scheduler} {history : List Entry}

/-- Before any call the roots are ready, and nothing else is. -/
theorem of_new (h : s.Accounted []) (hx : ∀ k, s.isExecuted k = false) : s.Recorded [] where
  accounted := h
  executed_iff k := by simp [hx, finished]
  released_nodup := List.nodup_nil
  released_iff k := by
    simp [released, h.ready_iff, hx, ← List.eq_nil_iff_forall_not_mem]
  law := Along.nil

/-- What a task releases when it is reported finished. -/
theorem releasable_eq (h : s.Recorded history) {k : TaskKey} (hx : s.isExecuted k = false)
    (hk : k < s.graph.size) :
    (s.markExecuted k).releasable k = s.graph.unlocks (finished history) k := by
  refine List.filter_congr fun c hc => ?_
  have hpar : k ∈ s.graph.parents c := (h.accounted.graph.mirror k c).mp hc
  -- a child of an unexecuted task is not ready yet
  have hr : s.isReady c = false := by
    rw [← Bool.not_eq_true, h.accounted.ready_iff]
    intro hready
    rw [hready.2 k hpar] at hx
    cases hx
  have hfin : ∀ p, (s.markExecuted k).isExecuted p = true ↔ p = k ∨ p ∈ finished history := by
    intro p
    rw [← h.executed_iff p]
    exact isExecuted_finish (h.accounted.executed_size ▸ hk) p
  have hall : ∀ p, (s.markExecuted k).isExecuted p = decide (p = k ∨ p ∈ finished history) :=
    fun p => Bool.eq_iff_iff.mpr ((hfin p).trans decide_eq_true_iff.symm)
  show (!s.isReady c && (s.graph.parents c).all (s.markExecuted k).isExecuted) = _
  rw [hr, funext hall]
  rfl

/-- A call that executes nothing. -/
theorem of_quiet (h : s.Recorded history) {s' : Scheduler} {e : Entry}
    (hgraph : s'.graph = s.graph) (hready : s'.ready = s.ready)
    (hexecuted : s'.executed = s.executed) (hf : e.finished? = none) (hr : e.released = [])
    (hacc : s'.Accounted (taken history ++ e.taken?.toList))
    (hp : s.graph.Permits history e) : s'.Recorded (history ++ [e]) := by
  have hfin : finished (history ++ [e]) = finished history := by simp [finished_snoc, hf]
  have hrel : released (history ++ [e]) = released history := by simp [released_snoc, hr]
  refine ⟨taken_snoc history e ▸ hacc, fun k => ?_, ?_, fun k => ?_, ?_⟩
  · rw [hfin, ← h.executed_iff k, isExecuted, isExecuted, hexecuted]
  · rw [hrel]; exact h.released_nodup
  · rw [hrel, h.released_iff k, isReady, isReady, hready, hgraph]
  · rw [hgraph]; exact along_snoc_iff.mpr ⟨h.law, hp⟩

/-- A task that was not executed is reported finished. -/
theorem finish (h : s.Recorded history) {k : TaskKey} (hk : k < s.graph.size)
    (hx : s.isExecuted k = false) :
    (s.finish k).Recorded (history ++ [.finished k (s.graph.unlocks (finished history) k)]) := by
  have hexec : ∀ j, (s.finish k).isExecuted j = true ↔ j = k ∨ s.isExecuted j = true :=
    isExecuted_finish (h.accounted.executed_size ▸ hk)
  have hmem : ∀ c, c ∈ s.graph.unlocks (finished history) k ↔ k ∈ s.graph.parents c ∧
      ∀ p ∈ s.graph.parents c, p = k ∨ p ∈ finished history :=
    fun c => h.accounted.graph.mem_unlocks_iff
  have hacc := h.accounted.finish hk hx
  refine ⟨?_, fun j => ?_, ?_, fun j => ?_, ?_⟩
  · simpa [taken_snoc, Entry.taken?] using hacc
  · rw [finished_snoc, List.mem_append, hexec, h.executed_iff, or_comm]
    simp [Entry.finished?]
  · rw [released_snoc, List.nodup_append]
    refine ⟨h.released_nodup, (h.accounted.graph.children_nodup k).filter _, ?_⟩
    intro a ha b hb hab
    have hr := (h.accounted.ready_iff a).mp ((h.released_iff a).mp ha).1
    rw [hr.2 k (hab ▸ ((hmem b).mp hb).1)] at hx
    cases hx
  · rw [released_snoc, List.mem_append, h.released_iff, hacc.ready_iff, h.accounted.ready_iff]
    show _ ∨ j ∈ s.graph.unlocks _ k ↔ (j < s.graph.size ∧ ∀ p ∈ s.graph.parents j, _) ∧ _
    rw [hmem]
    simp only [hexec, h.executed_iff]
    constructor
    · rintro (⟨⟨hj, hp⟩, hne⟩ | ⟨hpar, hp⟩)
      · exact ⟨⟨hj, fun p hm => Or.inr (hp p hm)⟩, hne⟩
      · exact ⟨⟨Graph.lt_of_mem_parents hpar, hp⟩, List.ne_nil_of_mem hpar⟩
    · rintro ⟨⟨hj, hp⟩, hne⟩
      by_cases hpar : k ∈ s.graph.parents j
      · exact Or.inr ⟨hpar, hp⟩
      · refine Or.inl ⟨⟨hj, fun p hm => (hp p hm).resolve_left fun he => ?_⟩, hne⟩
        exact hpar (he ▸ hm)
  · refine along_snoc_iff.mpr ⟨h.law, fun hm => ?_, rfl⟩
    rw [(h.executed_iff k).mpr hm] at hx
    cases hx

theorem take (h : s.Recorded history) {k : TaskKey} {rest : List TaskKey}
    (hq : s.queue = k :: rest) :
    Recorded { s with queue := rest } (history ++ [.took (some k)]) := by
  have hready : k ∈ taken history ++ s.queue := by simp [hq]
  refine h.of_quiet rfl rfl rfl rfl rfl (h.accounted.take hq) ⟨fun hm => ?_, fun p hp => ?_⟩
  · exact (h.accounted.not_queued hm).1 (by simp [hq])
  · exact (h.executed_iff p).mp (h.accounted.parents_executed hready hp)

/-- What a call can do. -/
theorem call_cases {n : Nat} (h : s.Recorded history) (hn : s.graph.size = n) (c : Call n) :
    s.call c = (s.cycle, .cycled) ∨ s.call c = (s, .took none) ∨
      (∃ k rest, s.queue = k :: rest ∧ s.call c = ({ s with queue := rest }, .took (some k))) ∨
      (∃ k, s.isExecuted k = true ∧
        s.call c = (s, .refused k (.alreadyExecuted (s.graph.id k)))) ∨
      ∃ k < s.graph.size, s.isExecuted k = false ∧
        (s.markExecuted k).releasable k = s.graph.unlocks (finished history) k ∧
        s.call c = (s.finish k, .finished k (s.graph.unlocks (finished history) k)) := by
  cases c with
  | cycle => exact Or.inl rfl
  | take =>
    cases hq : s.queue with
    | nil => exact Or.inr (Or.inl (by simp [Scheduler.call, take?, hq]))
    | cons k rest =>
      exact Or.inr (Or.inr (Or.inl ⟨k, rest, rfl, by simp [Scheduler.call, take?, hq]⟩))
  | notify k =>
    have hk : (k : TaskKey) < s.graph.size := hn ▸ k.isLt
    cases hx : s.isExecuted k with
    | true =>
      have hcall := notify_of_executed hx
      exact Or.inr (Or.inr (Or.inr (Or.inl ⟨k, hx, by simp [Scheduler.call, hcall]⟩)))
    | false =>
      have hunlock := h.releasable_eq hx hk
      refine Or.inr (Or.inr (Or.inr (Or.inr ⟨k, hk, hx, hunlock, ?_⟩)))
      rw [← hunlock]
      simp [Scheduler.call, notify_of_unexecuted hx]

/-- Every call keeps the records. -/
theorem call {n : Nat} (h : s.Recorded history) (hn : s.graph.size = n) (c : Call n) :
    (s.call c).1.Recorded (history ++ [(s.call c).2]) := by
  have hquiet : s.Accounted (taken history ++ []) := by
    rw [List.append_nil]
    exact h.accounted
  obtain hc | hc | ⟨k, rest, hq, hc⟩ | ⟨k, hx, hc⟩ | ⟨k, hk, hx, -, hc⟩ := h.call_cases hn c <;>
    rw [hc]
  · exact h.of_quiet rfl rfl rfl rfl rfl hquiet.cycle trivial
  · exact h.of_quiet rfl rfl rfl rfl rfl hquiet trivial
  · exact h.take hq
  · exact h.of_quiet rfl rfl rfl rfl rfl hquiet ⟨(h.executed_iff k).mp hx, rfl⟩
  · exact h.finish hk hx

/-- No call changes the graph or the policy. -/
theorem setup_call {n : Nat} (h : s.Recorded history) (hn : s.graph.size = n) (c : Call n) :
    (s.call c).1.graph = s.graph ∧ (s.call c).1.policy = s.policy := by
  obtain hc | hc | ⟨k, rest, -, hc⟩ | ⟨k, -, hc⟩ | ⟨k, -, -, -, hc⟩ := h.call_cases hn c <;>
    rw [hc] <;> exact ⟨rfl, rfl⟩

end Recorded

theorem Recorded.after {n : Nat} {s : Scheduler} (h : s.Recorded []) (hn : s.graph.size = n)
    (calls : List (Call n)) : (s.after calls).1.Recorded (s.after calls).2 ∧
      (s.after calls).1.graph = s.graph ∧ (s.after calls).1.policy = s.policy := by
  refine after_induct (I := fun t history => t.Recorded history ∧ t.graph = s.graph ∧
    t.policy = s.policy) (fun t history c ht => ?_) ⟨h, rfl, rfl⟩ calls
  obtain ⟨ht, hg, hp⟩ := ht
  obtain ⟨hg', hp'⟩ := ht.setup_call (hg ▸ hn) c
  exact ⟨ht.call (hg ▸ hn) c, hg'.trans hg, hp'.trans hp⟩

/-- A new scheduler for a declared graph. -/
theorem new_recorded_of_declarations (ds : List Graph.Declaration) (policy : Policy) :
    ∃ s, new (.ofDeclarations ds) policy = .ok s ∧
      s.graph.outline = (Graph.ofDeclarations ds).outline ∧ s.policy = policy ∧ s.Recorded [] := by
  obtain ⟨s, hs, ho, hp, hacc, hx, -⟩ := new_ok (Graph.ofDeclarations_wellFormed ds)
    (Graph.preprocessed_ofDeclarations ds) policy
  exact ⟨s, hs, ho, hp, .of_new hacc hx⟩

/-! ## Balance -/

/-- Graphs of one outline permit the same histories. -/
theorem permits_of_outline {g g' : Graph} (h : g'.outline = g.outline) (before : List Entry)
    (e : Entry) : g'.Permits before e ↔ g.Permits before e := by
  have hp : g'.parents = g.parents := funext (Graph.parents_of_outline h)
  have hc : g'.children = g.children := funext (Graph.children_of_outline h)
  have hi : g'.id = g.id := funext (Graph.id_of_outline h)
  cases e with
  | took k? => cases k? <;> simp only [Graph.Permits, hp]
  | _ => simp only [Graph.Permits, Graph.unlocks, hp, hc, hi]

/-- A scheduler for the graph `g` and its history tell the same of every task. -/
structure Balanced (g : Graph) (s : Scheduler) (history : List Entry) : Prop where
  ready_iff : ∀ k < g.size,
    s.isReady k = true ↔ ∀ p ∈ g.parents k, s.isExecuted p = true
  executed_iff : ∀ k, s.isExecuted k = true ↔ k ∈ finished history
  /-- A ready task is in one place, and no other task is anywhere. -/
  placed_iff : ∀ k, k ∈ taken history ++ s.queue ++ s.arrivals ↔ s.isReady k = true
  placed_nodup : (taken history ++ s.queue ++ s.arrivals).Nodup
  law : Along g.Permits history
  /-- A task that waited for others is released by one call when it becomes ready. -/
  released_iff : ∀ k, k ∈ released history ↔ s.isReady k = true ∧ g.parents k ≠ []
  released_nodup : (released history).Nodup
  count : s.executedCount = s.executed.count true
  remaining : s.remaining + s.executedCount = g.size
  refused_iff : ∀ k : Fin g.size, (∃ e, (s.notify k).2 = .error e) ↔ s.isExecuted k = true
  refused : ∀ (k : Fin g.size) e, (s.notify k).2 = .error e →
    e = .alreadyExecuted (g.id k) ∧ (s.call (.notify k)).1 = s

theorem Recorded.balanced {s : Scheduler} {history : List Entry} (h : s.Recorded history)
    {g : Graph} (ho : s.graph.outline = g.outline) : Balanced g s history where
  ready_iff k hk := by
    rw [h.accounted.ready_iff, Graph.size_of_outline ho, Graph.parents_of_outline ho]
    exact and_iff_right hk
  executed_iff := h.executed_iff
  placed_iff := h.accounted.mem_iff
  placed_nodup := h.accounted.nodup
  law := h.law.mono fun before e => (permits_of_outline ho before e).mp
  released_iff k := by rw [h.released_iff, Graph.parents_of_outline ho]
  released_nodup := h.released_nodup
  count := h.accounted.count
  remaining := by
    have hle : s.executed.count true ≤ s.executed.size := Array.count_le_size
    rw [← h.accounted.count, h.accounted.executed_size] at hle
    rw [← Graph.size_of_outline ho, Scheduler.remaining]
    omega
  refused_iff k := by
    cases hx : s.isExecuted k with
    | true => simp [notify_of_executed hx]
    | false => simp [notify_of_unexecuted hx]
  refused k e he := by
    cases hx : s.isExecuted k with
    | true =>
      rw [notify_of_executed hx, Graph.id_of_outline ho] at he
      refine ⟨(Except.error.inj he).symm, ?_⟩
      simp [Scheduler.call, notify_of_executed hx]
    | false =>
      rw [notify_of_unexecuted hx] at he
      cases he

/-- Whatever the graph and the policy are, and in whatever order tasks are taken and reported
finished: ready is what has only executed parents, each ready task was taken, is queued or has just
arrived, and each task that waited is released once, by its last parent. -/
theorem calls_keep_balance (ds : List Graph.Declaration) (policy : Policy) :
    ∃ s, new (.ofDeclarations ds) policy = .ok s ∧
      ∀ calls : List (Call (Graph.ofDeclarations ds).size),
        Balanced (.ofDeclarations ds) (s.after calls).1 (s.after calls).2 := by
  obtain ⟨s, hs, ho, -, hrec⟩ := new_recorded_of_declarations ds policy
  refine ⟨s, hs, fun calls => ?_⟩
  obtain ⟨h, hg, -⟩ := hrec.after (Graph.size_of_outline ho) calls
  exact h.balanced (hg ▸ ho)

end Scheduler

end Makespan
