import Mathlib
import Makespan.Proofs.EventQueue.Placement

/-! What a queue answers, however calls to schedule and calls to pop take turns: always the first of
the earliest events that wait. Any heap of numbered entries that takes out a maximum gives the same
answers. -/

namespace Makespan

/-! ## The order of times -/

namespace Binary64

/-- The total order of IEEE 754: by value, -0 before 0, and NaNs on the outside. Those of one sign
go by their codes. -/
def totalLe (x y : Binary64) : Bool :=
  if x.isNaN && y.isNaN then
    if x.negative then !y.negative || y.code ≤ x.code else !y.negative && x.code ≤ y.code
  else if x.isNaN then x.negative
  else if y.isNaN then !y.negative
  else x.lt y || (!y.lt x && (x.negative || !y.negative))

theorem totalLe_iff {x y : Binary64} : x.totalLe y = true ↔ x.rank ≤ y.rank := by
  obtain ⟨sx, cx, hx⟩ := x
  obtain ⟨sy, cy, hy⟩ := y
  by_cases nx : infinityCode < cx <;> by_cases ny : infinityCode < cy <;>
    cases sx <;> cases sy <;> simp [totalLe, rank, lt, lt.signed, isNaN, nx, ny] <;> omega

end Binary64

namespace EventQueue

variable {α : Type}

/-! ## Stable sorting -/

def NotLater (x y : Time × α) : Prop := x.1.totalLe y.1 = true

instance : DecidableRel (NotLater : Time × α → Time × α → Prop) := fun x y =>
  inferInstanceAs (Decidable (x.1.totalLe y.1 = true))

theorem notLater_iff {x y : Time × α} : NotLater x y ↔ x.1.rank ≤ y.1.rank :=
  Binary64.totalLe_iff

theorem NotLater.trans {x y z : Time × α} (hxy : NotLater x y) (hyz : NotLater y z) :
    NotLater x z :=
  notLater_iff.mpr ((notLater_iff.mp hxy).trans (notLater_iff.mp hyz))

theorem NotLater.total (x y : Time × α) : NotLater x y ∨ NotLater y x := by
  simpa only [notLater_iff] using le_total x.1.rank y.1.rank

/-- By time; events of one time keep their order. -/
def inOrder (events : List (Time × α)) : List (Time × α) := events.mergeSort (NotLater · ·)

@[simp] theorem inOrder_nil : inOrder ([] : List (Time × α)) = [] := List.mergeSort_nil

@[simp] theorem length_inOrder (events : List (Time × α)) :
    (inOrder events).length = events.length := List.length_mergeSort _

theorem orderedInsert_of_split {e : Time × α} {front back : List (Time × α)}
    (hfront : ∀ x ∈ front, ¬ NotLater e x) (hback : ∀ x ∈ back, NotLater e x) :
    (front ++ back).orderedInsert NotLater e = front ++ e :: back := by
  induction front with
  | nil =>
    cases back with
    | nil => rfl
    | cons b back => exact List.orderedInsert_cons_of_le _ _ (hback b (by simp))
  | cons f front ih =>
    rw [List.cons_append, List.orderedInsert_of_not_le _ _ (hfront f (by simp)),
      ih fun x hx => hfront x (List.mem_cons_of_mem f hx)]
    rfl

/-- The first event goes in front of all that are not earlier. -/
theorem inOrder_cons (e : Time × α) (events : List (Time × α)) :
    inOrder (e :: events) = (inOrder events).orderedInsert NotLater e := by
  have htrans : ∀ a b c : Time × α, decide (NotLater a b) = true → decide (NotLater b c) = true →
      decide (NotLater a c) = true := fun a b c hab hbc =>
    decide_eq_true ((of_decide_eq_true hab).trans (of_decide_eq_true hbc))
  have htotal : ∀ a b : Time × α, (decide (NotLater a b) || decide (NotLater b a)) = true :=
    fun a b => by simpa using NotLater.total a b
  obtain ⟨front, back, hcons, hrest, hfront⟩ := List.mergeSort_cons htrans htotal e events
  have hsorted := List.pairwise_mergeSort htrans htotal (e :: events)
  rw [hcons, List.pairwise_append] at hsorted
  rw [inOrder, inOrder, hcons, hrest]
  refine (orderedInsert_of_split (fun x hx => ?_) fun x hx => ?_).symm
  · simpa using hfront x hx
  · exact of_decide_eq_true (List.rel_of_pairwise_cons hsorted.2.1 hx)

theorem place_of_notLater {time : Time} {event : α} {x : Time × α} (h : NotLater x (time, event))
    (l : List (Time × α)) : place time event (x :: l) = x :: place time event l :=
  if_pos (notLater_iff.mp h)

theorem place_of_later {time : Time} {event : α} {x : Time × α} (h : ¬ NotLater x (time, event))
    (l : List (Time × α)) : place time event (x :: l) = (time, event) :: x :: l :=
  if_neg fun hle => h (notLater_iff.mpr hle)

/-- An event that comes last does not care where the first one went. -/
theorem place_orderedInsert (time : Time) (event : α) (e : Time × α) (l : List (Time × α)) :
    place time event (l.orderedInsert NotLater e) =
      (place time event l).orderedInsert NotLater e := by
  induction l with
  | nil =>
    by_cases he : NotLater e (time, event)
    · rw [List.orderedInsert_nil, place_of_notLater he, place, List.orderedInsert_cons_of_le _ _ he]
    · rw [List.orderedInsert_nil, place_of_later he, place, List.orderedInsert_of_not_le _ _ he,
        List.orderedInsert_nil]
  | cons x l ih =>
    by_cases hex : NotLater e x
    · rw [List.orderedInsert_cons_of_le _ _ hex]
      by_cases hx : NotLater x (time, event)
      · rw [place_of_notLater (hex.trans hx), place_of_notLater hx,
          List.orderedInsert_cons_of_le _ _ hex]
      · rw [place_of_later hx]
        by_cases he : NotLater e (time, event)
        · rw [place_of_notLater he, place_of_later hx, List.orderedInsert_cons_of_le _ _ he]
        · rw [place_of_later he, List.orderedInsert_of_not_le _ _ he,
            List.orderedInsert_cons_of_le _ _ hex]
    · rw [List.orderedInsert_of_not_le _ _ hex]
      by_cases hx : NotLater x (time, event)
      · rw [place_of_notLater hx, place_of_notLater hx, ih, List.orderedInsert_of_not_le _ _ hex]
      · have he : ¬ NotLater e (time, event) := fun he =>
          hex (he.trans ((NotLater.total _ _).resolve_left hx))
        rw [place_of_later hx, place_of_later hx, List.orderedInsert_of_not_le _ _ he,
          List.orderedInsert_of_not_le _ _ hex]

/-- To place a new event is to sort it in as the last one. -/
theorem place_inOrder (time : Time) (event : α) (events : List (Time × α)) :
    place time event (inOrder events) = inOrder (events ++ [(time, event)]) := by
  induction events with
  | nil => simp [place, inOrder]
  | cons e events ih => rw [List.cons_append, inOrder_cons, inOrder_cons, place_orderedInsert, ih]

/-! ## What is next -/

/-- Among some events in the order of their scheduling: no time is less, and it is the first of its
time. -/
structure Next (before : List (Time × α)) (e : Time × α) (after : List (Time × α)) : Prop where
  before : ∀ x ∈ before, ¬ NotLater x e
  after : ∀ x ∈ after, NotLater e x

theorem exists_next {events : List (Time × α)} (h : events ≠ []) :
    ∃ before e after, events = before ++ e :: after ∧ Next before e after := by
  induction events with
  | nil => exact absurd rfl h
  | cons x events ih =>
    by_cases hnil : events = []
    · subst hnil
      exact ⟨[], x, [], rfl, by simp, by simp⟩
    · obtain ⟨before, e, after, rfl, hnext⟩ := ih hnil
      by_cases hx : NotLater x e
      · refine ⟨[], x, before ++ e :: after, rfl, by simp, fun y hy => ?_⟩
        rw [notLater_iff] at hx ⊢
        rcases List.mem_append.mp hy with hy | hy
        · have hlt := hnext.before y hy
          rw [notLater_iff] at hlt
          omega
        · rcases List.mem_cons.mp hy with rfl | hy
          · exact hx
          · exact hx.trans (notLater_iff.mp (hnext.after y hy))
      · refine ⟨x :: before, e, after, rfl, fun y hy => ?_, hnext.after⟩
        rcases List.mem_cons.mp hy with rfl | hy
        · exact hx
        · exact hnext.before y hy

namespace Next

variable {before before' after after' : List (Time × α)} {e e' : Time × α}

/-- No later place is next too. -/
theorem not_next_after (h : Next before e after) (h' : Next before' e' after')
    (he : e ∈ before') (he' : e' ∈ after) : False :=
  h'.before e he (h.after e' he')

theorem unique (h : Next before e after) (h' : Next before' e' after')
    (heq : before ++ e :: after = before' ++ e' :: after') :
    before = before' ∧ e = e' ∧ after = after' := by
  rcases List.append_eq_append_iff.mp heq with ⟨l, hl, hl'⟩ | ⟨l, hl, hl'⟩
  · cases l with
    | nil => simp_all
    | cons x l =>
      obtain ⟨rfl, rfl⟩ := List.cons.inj hl'
      exact (h.not_next_after h' (by simp [hl]) (by simp)).elim
  · cases l with
    | nil => simp_all
    | cons x l =>
      obtain ⟨rfl, rfl⟩ := List.cons.inj hl'
      exact (h'.not_next_after h (by simp [hl]) (by simp)).elim

/-- What is next comes first in the order. -/
theorem inOrder_eq (h : Next before e after) :
    inOrder (before ++ e :: after) = e :: inOrder (before ++ after) := by
  induction before with
  | nil =>
    rw [List.nil_append, List.nil_append, inOrder_cons]
    change ([] ++ inOrder after).orderedInsert NotLater e = [] ++ e :: inOrder after
    refine orderedInsert_of_split (by simp) fun x hx => ?_
    exact h.after x (List.mem_mergeSort.mp hx)
  | cons x before ih =>
    have hx := h.before x (by simp)
    have hrest : Next before e after :=
      ⟨fun y hy => h.before y (List.mem_cons_of_mem x hy), h.after⟩
    rw [List.cons_append, inOrder_cons, ih hrest, List.orderedInsert_of_not_le _ _ hx,
      List.cons_append, inOrder_cons]

end Next

/-! ## Calls -/

inductive Op (α : Type) where
  | schedule (time : Time) (event : α)
  | pop

/-- The event that a call adds. -/
def Op.scheduled? : Op α → Option (Time × α)
  | schedule time event => some (time, event)
  | pop => none

/-- What the calls to pop give, in order, and the queue that is left. -/
def serve (q : EventQueue α) : List (Op α) → List (Option (Time × α)) × EventQueue α
  | [] => ([], q)
  | .schedule time event :: ops => (q.schedule time event).serve ops
  | .pop :: ops =>
    match q.pop? with
    | none => ((none :: (q.serve ops).1), (q.serve ops).2)
    | some (time, event, rest) => (some (time, event) :: (rest.serve ops).1, (rest.serve ops).2)

/-- What a queue should answer: `waiting` are the events that were scheduled and not popped yet, in
the order of their scheduling, and `left` are those after the calls. -/
inductive Served : List (Time × α) → List (Op α) → List (Option (Time × α)) →
    List (Time × α) → Prop
  | nil {waiting} : Served waiting [] [] waiting
  | schedule {waiting time event ops answers left} :
      Served (waiting ++ [(time, event)]) ops answers left →
        Served waiting (.schedule time event :: ops) answers left
  | pop {waiting before e after ops answers left} : waiting = before ++ e :: after →
      Next before e after → Served (before ++ after) ops answers left →
        Served waiting (.pop :: ops) (some e :: answers) left
  | nothing {ops answers left} : Served [] ops answers left →
      Served [] (.pop :: ops) (none :: answers) left

namespace Served

variable {waiting left left' : List (Time × α)} {ops : List (Op α)}
  {answers answers' : List (Option (Time × α))}

/-- There is one answer only. -/
theorem unique (h : Served waiting ops answers left) (h' : Served waiting ops answers' left') :
    answers = answers' ∧ left = left' := by
  induction h generalizing answers' left' with
  | nil =>
    cases h'
    exact ⟨rfl, rfl⟩
  | schedule _ ih =>
    cases h' with
    | schedule h' => exact ih h'
  | pop heq hnext _ ih =>
    cases h' with
    | pop heq' hnext' h' =>
      obtain ⟨rfl, rfl, rfl⟩ := hnext.unique hnext' (heq.symm.trans heq')
      obtain ⟨rfl, rfl⟩ := ih h'
      exact ⟨rfl, rfl⟩
    | nothing => simp at heq
  | nothing _ ih =>
    cases h' with
    | pop heq' => simp at heq'
    | nothing h' =>
      obtain ⟨rfl, rfl⟩ := ih h'
      exact ⟨rfl, rfl⟩

/-- Every event is given out once or is still waiting. -/
theorem perm (h : Served waiting ops answers left) :
    (answers.reduceOption ++ left).Perm (waiting ++ ops.filterMap (·.scheduled?)) := by
  induction h with
  | nil => simp
  | schedule _ ih => simpa [Op.scheduled?] using ih
  | @pop _ before e after _ _ _ heq _ _ ih =>
    subst heq
    have hmiddle : (e :: (before ++ after)).Perm (before ++ e :: after) := List.perm_middle.symm
    simpa [Op.scheduled?] using (ih.cons e).trans (hmiddle.append_right _)
  | nothing _ ih => simpa [Op.scheduled?] using ih

/-- Without any call to pop, everything is left. -/
theorem left_eq (h : Served waiting ops answers left) (hpop : ∀ op ∈ ops, op.scheduled? ≠ none) :
    left = waiting ++ ops.filterMap (·.scheduled?) := by
  induction h with
  | nil => simp
  | schedule _ ih =>
    rw [ih fun op hop => hpop op (List.mem_cons_of_mem _ hop)]
    simp [Op.scheduled?]
  | pop _ _ _ _ => exact absurd rfl (hpop .pop (by simp))
  | nothing _ _ => exact absurd rfl (hpop .pop (by simp))

end Served

/-- The pending events are those that wait, sorted. -/
theorem serve_served (ops : List (Op α)) {q : EventQueue α} {waiting : List (Time × α)}
    (hq : q.pending = inOrder waiting) :
    ∃ left, Served waiting ops (q.serve ops).1 left ∧ (q.serve ops).2.pending = inOrder left := by
  induction ops generalizing q waiting with
  | nil => exact ⟨waiting, .nil, hq⟩
  | cons op ops ih =>
    cases op with
    | schedule time event =>
      have hplaced : (q.schedule time event).pending = inOrder (waiting ++ [(time, event)]) := by
        rw [schedule, hq, place_inOrder]
      obtain ⟨left, hserved, hleft⟩ := ih hplaced
      exact ⟨left, .schedule hserved, hleft⟩
    | pop =>
      by_cases hnil : waiting = []
      · subst hnil
        have hpop : q.pop? = none := by rw [pop?, hq, inOrder_nil]
        obtain ⟨left, hserved, hleft⟩ := ih hq
        rw [serve, hpop]
        exact ⟨left, .nothing hserved, hleft⟩
      · obtain ⟨before, e, after, rfl, hnext⟩ := exists_next hnil
        rw [hnext.inOrder_eq] at hq
        obtain ⟨left, hserved, hleft⟩ := ih (q := ⟨inOrder (before ++ after)⟩) rfl
        rw [serve, pop?_of_pending hq]
        exact ⟨left, .pop rfl hnext hserved, hleft⟩

/-- To empty a queue is to read off its pending events. -/
theorem serve_drain (q : EventQueue α) :
    (q.serve (List.replicate q.size .pop)).1 = q.pending.map some := by
  obtain ⟨events⟩ := q
  induction events with
  | nil => rfl
  | cons e events ih =>
    rw [size, List.length_cons, List.replicate_succ, serve, pop?_of_pending rfl]
    exact congrArg (some e :: ·) ih

/-- What a queue shows, and what comes out of it, while some events wait. -/
structure Awaits (q : EventQueue α) (waiting : List (Time × α)) : Prop where
  size : q.size = waiting.length
  isEmpty : q.isEmpty = true ↔ waiting = []
  peek : q.peek? = q.pop?.map (·.1)
  next : ∀ before e after, waiting = before ++ e :: after → Next before e after →
    ∃ rest, q.pop? = some (e.1, e.2, rest)
  nothing : q.pop? = none ↔ waiting = []
  drain : (q.serve (List.replicate q.size .pop)).1 = (waiting.mergeSort (NotLater · ·)).map some

theorem Awaits.of_pending {q : EventQueue α} {waiting : List (Time × α)}
    (h : q.pending = inOrder waiting) : Awaits q waiting where
  size := by rw [EventQueue.size, h, length_inOrder]
  isEmpty := by
    rw [EventQueue.isEmpty, List.isEmpty_iff, ← List.length_eq_zero_iff, h, length_inOrder,
      List.length_eq_zero_iff]
  peek := by cases hq : q.pending <;> simp [peek?, pop?, hq]
  next := by
    rintro before e after rfl hnext
    exact ⟨_, pop?_of_pending (h.trans hnext.inOrder_eq)⟩
  nothing := by
    rw [← List.length_eq_zero_iff, ← length_inOrder, ← h]
    cases hq : q.pending <;> simp [pop?, hq]
  drain := by rw [serve_drain, h, inOrder]

/-! ## Heaps -/

/-- An event with the number of its call. -/
structure Entry (α : Type) where
  time : Time
  number : Nat
  event : α

namespace Entry

def pair (x : Entry α) : Time × α := (x.time, x.event)

/-- The earlier entry is the greater one, and of one time the first. -/
def order (x y : Entry α) : Ordering :=
  (compare y.time.rank x.time.rank).then (compare y.number x.number)

theorem isLE_order_iff {x y : Entry α} : (x.order y).isLE = true ↔
    y.time.rank < x.time.rank ∨ y.time.rank = x.time.rank ∧ y.number ≤ x.number := by
  rw [order, Ordering.isLE_then_iff_or, Std.compare_eq_lt, Std.compare_eq_iff_eq, Nat.isLE_compare]

end Entry

/-- A heap and its counter: the entries may lie in any order, but what is taken out is a
maximum. -/
inductive HeapServed : List (Entry α) → Nat → List (Op α) → List (Option (Time × α)) →
    List (Entry α) → Prop
  | nil {heap number} : HeapServed heap number [] [] heap
  | schedule {heap heap' number time event ops answers left} :
      heap'.Perm (⟨time, number, event⟩ :: heap) →
        HeapServed heap' (number + 1) ops answers left →
          HeapServed heap number (.schedule time event :: ops) answers left
  | pop {heap x rest number ops answers left} : heap.Perm (x :: rest) →
      (∀ y ∈ rest, (y.order x).isLE = true) → HeapServed rest number ops answers left →
        HeapServed heap number (.pop :: ops) (some x.pair :: answers) left
  | nothing {number ops answers left} : HeapServed [] number ops answers left →
      HeapServed [] number (.pop :: ops) (none :: answers) left

/-- Of some entries one comes first, as long as there are any. -/
theorem exists_maximum {heap : List (Entry α)} (h : heap ≠ []) :
    ∃ x rest, heap.Perm (x :: rest) ∧ ∀ y ∈ rest, (y.order x).isLE = true := by
  induction heap with
  | nil => exact absurd rfl h
  | cons x heap ih =>
    by_cases hnil : heap = []
    · subst hnil
      exact ⟨x, [], .refl _, by simp⟩
    · obtain ⟨m, rest, hperm, hmax⟩ := ih hnil
      by_cases hx : (x.order m).isLE = true
      · refine ⟨m, x :: rest, (hperm.cons x).trans (.swap _ _ _), fun y hy => ?_⟩
        rcases List.mem_cons.mp hy with rfl | hy
        · exact hx
        · exact hmax y hy
      · refine ⟨x, m :: rest, hperm.cons x, fun y hy => ?_⟩
        rw [Entry.isLE_order_iff] at hx ⊢
        rcases List.mem_cons.mp hy with rfl | hy
        · omega
        · have hym := Entry.isLE_order_iff.mp (hmax y hy)
          omega

/-- Every sequence of calls can be served by a heap. -/
theorem exists_heapServed (ops : List (Op α)) (heap : List (Entry α)) (number : Nat) :
    ∃ answers left, HeapServed heap number ops answers left := by
  induction ops generalizing heap number with
  | nil => exact ⟨[], heap, .nil⟩
  | cons op ops ih =>
    cases op with
    | schedule time event =>
      obtain ⟨answers, left, hserved⟩ := ih (⟨time, number, event⟩ :: heap) (number + 1)
      exact ⟨answers, left, .schedule (.refl _) hserved⟩
    | pop =>
      by_cases hnil : heap = []
      · subst hnil
        obtain ⟨answers, left, hserved⟩ := ih [] number
        exact ⟨none :: answers, left, .nothing hserved⟩
      · obtain ⟨x, rest, hperm, hmax⟩ := exists_maximum hnil
        obtain ⟨answers, left, hserved⟩ := ih rest number
        exact ⟨some x.pair :: answers, left, .pop hperm hmax hserved⟩

/-- The entries of a heap in the order of their numbers are the events that wait. -/
structure Holds (heap : List (Entry α)) (number : Nat) (entries : List (Entry α)) : Prop where
  perm : heap.Perm entries
  increasing : entries.Pairwise (·.number < ·.number)
  numbered : ∀ x ∈ entries, x.number < number

namespace Holds

variable {heap heap' entries rest : List (Entry α)} {number : Nat} {x : Entry α}

theorem schedule (h : Holds heap number entries) {time : Time} {event : α}
    (hperm : heap'.Perm (⟨time, number, event⟩ :: heap)) :
    Holds heap' (number + 1) (entries ++ [⟨time, number, event⟩]) where
  perm := hperm.trans ((h.perm.cons _).trans (List.perm_append_singleton _ _).symm)
  increasing := List.pairwise_append.mpr ⟨h.increasing, List.pairwise_singleton _ _,
    fun x hx y hy => by
      rw [List.mem_singleton.mp hy]
      exact h.numbered x hx⟩
  numbered y hy := by
    rcases List.mem_append.mp hy with hy | hy
    · exact (h.numbered y hy).trans (Nat.lt_succ_self _)
    · rw [List.mem_singleton.mp hy]
      exact Nat.lt_succ_self _

/-- A maximum is what is next. -/
theorem exists_next (h : Holds heap number entries) (hperm : heap.Perm (x :: rest))
    (hmax : ∀ y ∈ rest, (y.order x).isLE = true) :
    ∃ before after, entries = before ++ x :: after ∧
      Next (before.map Entry.pair) x.pair (after.map Entry.pair) ∧
      Holds rest number (before ++ after) := by
  have hx : x ∈ entries := h.perm.mem_iff.mp (hperm.mem_iff.mpr (by simp))
  obtain ⟨before, after, rfl⟩ := List.append_of_mem hx
  have hrest : rest.Perm (before ++ after) :=
    (hperm.symm.trans (h.perm.trans List.perm_middle)).cons_inv
  obtain ⟨hbefore, hafter, hacross⟩ := List.pairwise_append.mp h.increasing
  obtain ⟨hxafter, hafter⟩ := List.pairwise_cons.mp hafter
  refine ⟨before, after, rfl, ⟨fun p hp => ?_, fun p hp => ?_⟩, hrest,
    List.pairwise_append.mpr ⟨hbefore, hafter, fun y hy z hz =>
      hacross y hy z (List.mem_cons_of_mem x hz)⟩, fun y hy => h.numbered y ?_⟩
  · -- an entry of the same time with a smaller number would have been greater
    obtain ⟨y, hy, rfl⟩ := List.mem_map.mp hp
    have hle := Entry.isLE_order_iff.mp (hmax y (hrest.mem_iff.mpr (List.mem_append_left _ hy)))
    have hlt := hacross y hy x (by simp)
    rw [notLater_iff, not_le]
    exact hle.resolve_right fun hsame => absurd hsame.2 (not_le.mpr hlt)
  · obtain ⟨y, hy, rfl⟩ := List.mem_map.mp hp
    have hle := Entry.isLE_order_iff.mp (hmax y (hrest.mem_iff.mpr (List.mem_append_right _ hy)))
    rw [notLater_iff]
    exact hle.elim le_of_lt fun hsame => hsame.1.le
  · rcases List.mem_append.mp hy with hy | hy <;> simp [hy]

/-- A heap answers as a queue should. -/
theorem served {ops : List (Op α)} {answers : List (Option (Time × α))} {left : List (Entry α)}
    (hs : HeapServed heap number ops answers left) (h : Holds heap number entries) :
    ∃ n entries', Holds left n entries' ∧
      Served (entries.map Entry.pair) ops answers (entries'.map Entry.pair) := by
  induction hs generalizing entries with
  | nil => exact ⟨_, entries, h, .nil⟩
  | schedule hperm _ ih =>
    obtain ⟨n, entries', hleft, hserved⟩ := ih (h.schedule hperm)
    rw [List.map_append] at hserved
    exact ⟨n, entries', hleft, .schedule hserved⟩
  | pop hperm hmax _ ih =>
    obtain ⟨before, after, rfl, hnext, hrest⟩ := h.exists_next hperm hmax
    obtain ⟨n, entries', hleft, hserved⟩ := ih hrest
    rw [List.map_append] at hserved
    exact ⟨n, entries', hleft, .pop (by simp) hnext hserved⟩
  | nothing _ ih =>
    obtain ⟨n, entries', hleft, hserved⟩ := ih h
    obtain rfl := h.perm.nil_eq
    exact ⟨n, entries', hleft, .nothing hserved⟩

end Holds

/-- However calls to schedule and calls to pop take turns, and whatever the times are: the answers
are the ones that a queue should give, and what is left is what the queue holds. No event is lost,
doubled or changed. A heap of numbered entries gives the same answers, is as large and shows the
same time. -/
theorem served_in_order (ops : List (Op α)) :
    let answers := (empty.serve ops).1
    let q := (empty.serve ops).2
    ∃ waiting, Awaits q waiting ∧
      (∀ answers' left, Served [] ops answers' left ↔ answers' = answers ∧ left = waiting) ∧
      (answers.reduceOption ++ waiting).Perm (ops.filterMap (·.scheduled?)) ∧
      ((∀ op ∈ ops, op.scheduled? ≠ none) → waiting = ops.filterMap (·.scheduled?)) ∧
      (∃ heap, HeapServed [] 0 ops answers heap) ∧
      ∀ answers' heap, HeapServed [] 0 ops answers' heap → answers' = answers ∧
        heap.length = q.size ∧
        ∀ x rest, heap.Perm (x :: rest) → (∀ y ∈ rest, (y.order x).isLE = true) →
          q.peek? = some x.time := by
  intro answers q
  have hempty : (empty : EventQueue α).pending = inOrder [] := inOrder_nil.symm
  obtain ⟨waiting, hserved, hq⟩ := serve_served ops hempty
  have hserved : Served [] ops answers waiting := hserved
  have hq : Awaits q waiting := .of_pending hq
  have hheap : ∀ answers' heap, HeapServed [] 0 ops answers' heap → answers' = answers ∧
      ∃ n entries, Holds heap n entries ∧ waiting = entries.map Entry.pair := by
    intro answers' heap hh
    obtain ⟨n, entries, hleft, hs⟩ := Holds.served hh ⟨.refl _, .nil, by simp⟩
    obtain ⟨rfl, rfl⟩ := hserved.unique hs
    exact ⟨rfl, n, entries, hleft, rfl⟩
  refine ⟨waiting, hq, fun answers' left => ⟨fun hs => hs.unique hserved, ?_⟩,
    by simpa using hserved.perm, fun hpop => by simpa using hserved.left_eq hpop, ?_,
    fun answers' heap hh => ?_⟩
  · rintro ⟨rfl, rfl⟩
    exact hserved
  · obtain ⟨answers', heap, hh⟩ := exists_heapServed ops [] 0
    obtain ⟨rfl, -⟩ := hheap answers' heap hh
    exact ⟨heap, hh⟩
  · obtain ⟨hanswers, n, entries, hleft, hw⟩ := hheap answers' heap hh
    refine ⟨hanswers, ?_, fun x rest hperm hmax => ?_⟩
    · rw [hq.size, hw, List.length_map, hleft.perm.length_eq]
    · obtain ⟨before, after, rfl, hnext, -⟩ := hleft.exists_next hperm hmax
      obtain ⟨rest, hpop⟩ := hq.next _ _ _ (by rw [hw]; simp) hnext
      rw [hq.peek, hpop]
      rfl

/-- NaNs come first or last by their sign, -0 before 0, and the two zeros in order. -/
example : ((empty.serve [.schedule (.nan false) 0, .schedule .zero 1,
    .schedule ⟨true, 0, by decide⟩ 2, .schedule (.nan true) 3, .schedule .zero 4,
    .pop, .pop, .pop, .pop, .pop, .pop]).1.map (·.map (·.2)) : List (Option Nat)) =
      [some 3, some 2, some 1, some 4, some 0, none] := by
  decide

end EventQueue

end Makespan
