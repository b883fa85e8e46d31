import Makespan.Proofs.Graph.WellFormed

/-! Traversals. Both derivations visit the tasks in the same way, one along the edges and one against
them: a task is visited once all those before it have been, and hands its value on to those after
it. So each task is visited at most once, and what it hands on is final. -/

namespace Makespan

structure Traversal (α : Type) where
  size : Nat
  before : TaskKey → List TaskKey
  after : TaskKey → List TaskKey
  /-- What becomes of a value when a task with a value of its own is visited before it. -/
  hand : TaskKey → α → α → α

namespace Traversal

structure State (α : Type) where
  waiting : Array Nat
  values : Array α
  queue : List TaskKey

variable {α : Type}

/-- Changing each of several places once. -/
theorem getElem?_foldl_modify {β : Type} (f : β → β) {ks : List Nat} (hks : ks.Nodup)
    (values : Array β) (k : Nat) :
    (ks.foldl (fun values j => values.modify j f) values)[k]? =
      values[k]?.map fun b => if k ∈ ks then f b else b := by
  induction ks generalizing values with
  | nil => simp
  | cons j ks ih =>
    obtain ⟨hj, hks⟩ := List.nodup_cons.mp hks
    rw [List.foldl_cons, ih hks, Array.getElem?_modify]
    by_cases hk : j = k
    · subst hk
      simp [hj, Function.comp_def]
    · simp [hk, Ne.symm hk]

namespace State

def reach (f : α → α) (s : State α) (k : TaskKey) : State α where
  waiting := s.waiting.modify k (· - 1)
  values := s.values.modify k f
  queue := if s.waiting.getD k 0 - 1 = 0 then s.queue ++ [k] else s.queue

/-- Tasks that are reached in one visit do not get in each other's way. -/
theorem reachAll (f : α → α) {ks : List TaskKey} (hks : ks.Nodup) (s : State α) :
    (∀ k, (ks.foldl (reach f) s).waiting[k]? =
      s.waiting[k]?.map fun n => if k ∈ ks then n - 1 else n) ∧
    (∀ k, (ks.foldl (reach f) s).values[k]? =
      s.values[k]?.map fun a => if k ∈ ks then f a else a) ∧
    (ks.foldl (reach f) s).queue =
      s.queue ++ ks.filter fun k => s.waiting.getD k 0 - 1 = 0 := by
  have hw : (ks.foldl (reach f) s).waiting =
      ks.foldl (fun a k => a.modify k (· - 1)) s.waiting :=
    (List.foldl_hom State.waiting fun _ _ => rfl).symm
  have hv : (ks.foldl (reach f) s).values = ks.foldl (fun a k => a.modify k f) s.values :=
    (List.foldl_hom State.values fun _ _ => rfl).symm
  refine ⟨fun k => by rw [hw, getElem?_foldl_modify _ hks],
    fun k => by rw [hv, getElem?_foldl_modify _ hks], ?_⟩
  clear hw hv
  induction ks generalizing s with
  | nil => simp
  | cons j ks ih =>
    obtain ⟨hj, hks⟩ := List.nodup_cons.mp hks
    have hrest : ks.filter (fun k => (s.reach f j).waiting.getD k 0 - 1 = 0) =
        ks.filter fun k => s.waiting.getD k 0 - 1 = 0 := by
      refine List.filter_congr fun k hk => ?_
      have hne : j ≠ k := fun he => hj (he ▸ hk)
      simp [reach, Array.getD_eq_getD_getElem?, Array.getElem?_modify, hne]
    rw [List.foldl_cons, ih hks, hrest, List.filter_cons]
    unfold reach
    split <;> simp_all

end State

variable [Inhabited α]

/-- Visits the next task in the queue. -/
def step (t : Traversal α) (s : State α) : State α :=
  match s.queue with
  | [] => s
  | k :: rest =>
    (t.after k).foldl (State.reach (t.hand k (s.values.getD k default))) { s with queue := rest }

def run (t : Traversal α) : Nat → State α → State α
  | 0, s => s
  | n + 1, s =>
    match s.queue with
    | [] => s
    | _ :: _ => t.run n (t.step s)

/-- What is before a task is told by what is after it. -/
structure Mirrored (t : Traversal α) : Prop where
  mirror : ∀ j k, k ∈ t.after j ↔ j ∈ t.before k
  after_nodup : ∀ k, (t.after k).Nodup
  before_nodup : ∀ k, (t.before k).Nodup
  after_lt : ∀ j k, k ∈ t.after j → k < t.size
  before_lt : ∀ j k, j ∈ t.before k → j < t.size

/-- One task comes before another, directly or through others. -/
def Leads (t : Traversal α) : TaskKey → TaskKey → Prop :=
  Relation.TransGen fun j k => j ∈ t.before k

/-- A task on a cycle, or one that a cycle leads to. -/
def Knotted (t : Traversal α) (k : TaskKey) : Prop :=
  ∃ j, t.Leads j j ∧ (j = k ∨ t.Leads j k)

omit [Inhabited α] in
/-- What grows from each task to the next grows along the whole way. -/
theorem Leads.lt {t : Traversal α} {f : TaskKey → Nat}
    (hf : ∀ j k, j ∈ t.before k → f j < f k) {j k : TaskKey} (h : t.Leads j k) : f j < f k := by
  induction h with
  | single hj => exact hf _ _ hj
  | tail _ hq ih => exact ih.trans (hf _ _ hq)

omit [Inhabited α] in
/-- Nothing is knotted where numbers grow from each task to the next. -/
theorem not_knotted {t : Traversal α} {f : TaskKey → Nat}
    (hf : ∀ j k, j ∈ t.before k → f j < f k) (k : TaskKey) : ¬ t.Knotted k :=
  fun ⟨_, hjj, _⟩ => lt_irrefl _ (Leads.lt hf hjj)

omit [Inhabited α] in
theorem Knotted.of_before {t : Traversal α} {j k : TaskKey} (h : t.Knotted j)
    (hj : j ∈ t.before k) : t.Knotted k := by
  obtain ⟨i, hii, hij⟩ := h
  refine ⟨i, hii, Or.inr ?_⟩
  rcases hij with rfl | hij
  · exact .single hj
  · exact .tail hij hj

omit [Inhabited α] in
/-- Where no cycle leads, the number of tasks that lead to a task grows from one to the next. -/
theorem Mirrored.exists_number {t : Traversal α} (ht : t.Mirrored) :
    ∃ number : TaskKey → Nat, ∀ j k, j ∈ t.before k → ¬ t.Knotted k → number j < number k := by
  classical
  refine ⟨fun k => ((Finset.range t.size).filter (t.Leads · k)).card, fun j k hj hk => ?_⟩
  refine Finset.card_lt_card (Finset.ssubset_iff_of_subset ?_ |>.mpr ⟨j, ?_, ?_⟩)
  · exact Finset.monotone_filter_right _ fun i _ hij => Relation.TransGen.tail hij hj
  · exact Finset.mem_filter.mpr ⟨Finset.mem_range.mpr (ht.before_lt j k hj), .single hj⟩
  · intro hjj
    exact hk ⟨j, (Finset.mem_filter.mp hjj).2, Or.inr (.single hj)⟩

/-- The value of a task to which all visited ones before it have handed theirs, in order. -/
def handed (t : Traversal α) (first : TaskKey → α) (values : Array α) (done : List TaskKey)
    (k : TaskKey) : α :=
  (done.filter (· ∈ t.before k)).foldl (fun a j => t.hand j (values.getD j default) a) (first k)

/-- A traversal that has visited the tasks in `done`, in that order. -/
structure Visited (t : Traversal α) (first : TaskKey → α) (done : List TaskKey) (s : State α) :
    Prop where
  nodup : (done ++ s.queue).Nodup
  mem_iff : ∀ k, k ∈ done ++ s.queue ↔ k < t.size ∧ ∀ j ∈ t.before k, j ∈ done
  before_first : ∀ front k back, done = front ++ k :: back → ∀ j ∈ t.before k, j ∈ front
  waiting : ∀ k < t.size, s.waiting[k]? = some ((t.before k).countP (· ∉ done))
  values : ∀ k < t.size, s.values[k]? = some (t.handed first s.values done k)

variable {t : Traversal α} {first : TaskKey → α} {done : List TaskKey} {s : State α}

theorem countP_snoc {l : List TaskKey} (hl : l.Nodup) {k : TaskKey} (hk : k ∉ done) :
    l.countP (· ∉ done ++ [k]) = l.countP (· ∉ done) - if k ∈ l then 1 else 0 := by
  induction l with
  | nil => rfl
  | cons j l ih =>
    obtain ⟨hj, hl⟩ := List.nodup_cons.mp hl
    rw [List.countP_cons, List.countP_cons, ih hl]
    by_cases he : j = k
    · subst he
      simp [hj, hk]
    · have hne : ¬ k = j := fun h => he h.symm
      by_cases hkl : k ∈ l
      · have hpos : 0 < l.countP (· ∉ done) := List.countP_pos_iff.mpr ⟨k, hkl, by simpa using hk⟩
        generalize l.countP (· ∉ done) = n at hpos ⊢
        by_cases hd : j ∈ done
        · simp [hne, hkl, hd]
        · simp [he, hne, hkl, hd]
          omega
      · by_cases hd : j ∈ done <;> simp [he, hne, hkl, hd]

/-- The tasks that a visit puts into the queue. -/
def freed (t : Traversal α) (s : State α) (k : TaskKey) : List TaskKey :=
  (t.after k).filter fun j => s.waiting.getD j 0 - 1 = 0

/-- What a visit changes. -/
theorem step_of_queue (ht : t.Mirrored) {k : TaskKey} {rest : List TaskKey}
    (hq : s.queue = k :: rest) :
    (∀ j, (t.step s).waiting[j]? = s.waiting[j]?.map fun n => if j ∈ t.after k then n - 1 else n) ∧
    (∀ j, (t.step s).values[j]? = s.values[j]?.map fun a =>
      if j ∈ t.after k then t.hand k (s.values.getD k default) a else a) ∧
    (t.step s).queue = rest ++ t.freed s k := by
  unfold step
  rw [hq]
  exact State.reachAll _ (ht.after_nodup k) { s with queue := rest }

namespace Visited

/-! One visit, of the task `k` -/

section Step

variable (h : t.Visited first done s) (ht : t.Mirrored) {k : TaskKey} {rest : List TaskKey}
  (hq : s.queue = k :: rest)
include h hq

theorem head_not_done : k ∉ done := by
  intro hk
  exact (List.nodup_append.mp h.nodup).2.2 k hk k (by simp [hq]) rfl

include ht

/-- Whatever waits for the visited task was neither visited nor queued. -/
theorem after_new {j : TaskKey} (hj : j ∈ t.after k) : j ∉ done ++ s.queue := by
  intro hm
  exact h.head_not_done hq (((h.mem_iff j).mp hm).2 k ((ht.mirror k j).mp hj))

theorem head_not_after : k ∉ t.after k := fun hk =>
  h.after_new ht hq hk (by simp [hq])

theorem countP_visit (j : TaskKey) : (t.before j).countP (· ∉ done ++ [k]) =
    (t.before j).countP (· ∉ done) - if j ∈ t.after k then 1 else 0 := by
  rw [countP_snoc (ht.before_nodup j) (h.head_not_done hq)]
  simp only [ht.mirror]

/-- A visit frees those for which it was the last one. -/
theorem mem_freed_iff {j : TaskKey} :
    j ∈ t.freed s k ↔ j ∈ t.after k ∧ ∀ i ∈ t.before j, i ∈ done ++ [k] := by
  unfold freed
  rw [List.mem_filter]
  refine and_congr_right fun hj => ?_
  have hzero := h.countP_visit ht hq j
  rw [if_pos hj] at hzero
  rw [Array.getD_eq_getD_getElem?, h.waiting j (ht.after_lt k j hj), Option.getD_some, ← hzero,
    decide_eq_true_eq, List.countP_eq_zero]
  simp only [decide_eq_true_eq, not_not]

theorem handed_visit (j : TaskKey) : t.handed first (t.step s).values (done ++ [k]) j =
    if j ∈ t.after k then t.hand k (s.values.getD k default) (t.handed first s.values done j)
    else t.handed first s.values done j := by
  obtain ⟨-, hv, -⟩ := step_of_queue ht hq
  have hsame : ∀ i, i ∉ t.after k →
      (t.step s).values.getD i default = s.values.getD i default := by
    intro i hi
    simp [Array.getD_eq_getD_getElem?, hv, hi]
  -- what the visited tasks have handed on is final
  have hdone : t.handed first (t.step s).values done j = t.handed first s.values done j := by
    unfold handed
    refine List.foldl_ext _ _ _ fun a i hi => ?_
    have hid := (List.mem_filter.mp hi).1
    rw [hsame i fun hm => h.after_new ht hq hm (List.mem_append_left _ hid)]
  rw [← hdone, ← hsame k (h.head_not_after ht hq)]
  unfold handed
  rw [List.filter_append, List.foldl_append]
  by_cases hj : j ∈ t.after k
  · simp [hj, (ht.mirror k j).mp hj]
  · have hkj : k ∉ t.before j := fun hm => hj ((ht.mirror k j).mpr hm)
    simp [hj, hkj]

theorem step : t.Visited first (done ++ [k]) (t.step s) := by
  obtain ⟨hw, hv, hqueue⟩ := step_of_queue ht hq
  have hlist : done ++ [k] ++ (t.step s).queue = done ++ s.queue ++ t.freed s k := by
    rw [hqueue, hq]
    simp
  refine ⟨?_, fun j => ?_, fun front j back hsplit i hi => ?_, fun j hj => ?_, fun j hj => ?_⟩
  · rw [hlist, List.nodup_append]
    refine ⟨h.nodup, (ht.after_nodup k).filter _, fun i hi j hj hij => ?_⟩
    exact h.after_new ht hq (List.mem_filter.mp hj).1 (hij ▸ hi)
  · rw [hlist, List.mem_append, h.mem_freed_iff ht hq, h.mem_iff]
    constructor
    · rintro (⟨hlt, hall⟩ | ⟨hj, hall⟩)
      · exact ⟨hlt, fun i hi => List.mem_append_left _ (hall i hi)⟩
      · exact ⟨ht.after_lt k j hj, hall⟩
    · rintro ⟨hlt, hall⟩
      by_cases hj : j ∈ t.after k
      · exact Or.inr ⟨hj, hall⟩
      · refine Or.inl ⟨hlt, fun i hi => ?_⟩
        rcases List.mem_append.mp (hall i hi) with hd | hik
        · exact hd
        · obtain rfl := List.mem_singleton.mp hik
          exact absurd ((ht.mirror i j).mpr hi) hj
  · rcases List.eq_nil_or_concat back with rfl | ⟨back, last, rfl⟩
    · obtain ⟨rfl, he⟩ := List.append_inj' hsplit rfl
      obtain rfl := (List.cons.inj he).1
      have hkq : k ∈ done ++ s.queue := by simp [hq]
      exact ((h.mem_iff k).mp hkq).2 i hi
    · rw [List.concat_eq_append, ← List.cons_append, ← List.append_assoc] at hsplit
      exact h.before_first front j back (List.append_inj' hsplit rfl).1 i hi
  · rw [hw]
    simp only [h.waiting j hj, Option.map_some, h.countP_visit ht hq]
    split <;> simp
  · rw [hv, h.handed_visit ht hq]
    simp only [h.values j hj, Option.map_some]

end Step

/-! Whole traversals -/

theorem start (hq : s.queue.Nodup) (hm : ∀ k, k ∈ s.queue ↔ k < t.size ∧ t.before k = [])
    (hw : ∀ k < t.size, s.waiting[k]? = some (t.before k).length)
    (hv : ∀ k < t.size, s.values[k]? = some (first k)) : t.Visited first [] s where
  nodup := hq
  mem_iff k := by
    rw [List.nil_append, hm]
    simp [List.eq_nil_iff_forall_not_mem]
  before_first front k back hsplit := by simp at hsplit
  waiting k hk := by simp [hw k hk]
  values := hv

theorem length_le (h : t.Visited first done s) : done.length + s.queue.length ≤ t.size := by
  have hsub : done ++ s.queue ⊆ List.range t.size := by
    intro k hk
    exact List.mem_range.mpr ((h.mem_iff k).mp hk).1
  have hle := (List.subperm_of_subset h.nodup hsub).length_le
  rwa [List.length_append, List.length_range] at hle

/-- The queue runs dry before the steps do. -/
theorem run (h : t.Visited first done s) (ht : t.Mirrored) {n : Nat}
    (hn : t.size ≤ done.length + n) :
    ∃ done, t.Visited first done (t.run n s) ∧ (t.run n s).queue = [] := by
  induction n generalizing done s with
  | zero =>
    have hle := h.length_le
    exact ⟨done, h, List.length_eq_zero_iff.mp (by omega : s.queue.length = 0)⟩
  | succ n ih =>
    unfold Traversal.run
    cases hq : s.queue with
    | nil => exact ⟨done, h, hq⟩
    | cons k rest =>
      refine ih (h.step ht hq) ?_
      rw [List.length_append, List.length_singleton]
      omega

/-! ## What is visited -/

/-- Being visited earlier. -/
theorem idxOf_lt_of_before (h : t.Visited first done s) {j k : TaskKey} (hk : k ∈ done)
    (hj : j ∈ t.before k) : j ∈ done ∧ done.idxOf j < done.idxOf k := by
  obtain ⟨front, back, rfl, hkf⟩ := List.eq_append_cons_of_mem hk
  have hjf := h.before_first front k back rfl j hj
  refine ⟨List.mem_append_left _ hjf, ?_⟩
  rw [List.idxOf_append_of_mem hjf, List.idxOf_append_of_notMem hkf, List.idxOf_cons_self]
  exact (List.idxOf_lt_length_of_mem hjf).trans_le (Nat.le_add_right _ _)

theorem idxOf_lt_of_leads (h : t.Visited first done s) {j k : TaskKey} (hk : k ∈ done)
    (hjk : t.Leads j k) : j ∈ done ∧ done.idxOf j < done.idxOf k := by
  induction hjk with
  | single hj => exact h.idxOf_lt_of_before hk hj
  | tail _ hq ih =>
    obtain ⟨hqd, hqlt⟩ := h.idxOf_lt_of_before hk hq
    obtain ⟨hjd, hjlt⟩ := ih hqd
    exact ⟨hjd, hjlt.trans hqlt⟩

/-- In the end the visited tasks are those that no cycle leads to. -/
theorem mem_done_iff (h : t.Visited first done s) (hq : s.queue = []) (ht : t.Mirrored)
    {k : TaskKey} : k ∈ done ↔ k < t.size ∧ ¬ t.Knotted k := by
  have hmem : ∀ k, k ∈ done ↔ k < t.size ∧ ∀ j ∈ t.before k, j ∈ done := by
    intro k
    rw [← h.mem_iff, hq, List.append_nil]
  constructor
  · intro hk
    refine ⟨((hmem k).mp hk).1, fun ⟨j, hjj, hjk⟩ => ?_⟩
    have hj : j ∈ done := by
      rcases hjk with rfl | hjk
      · exact hk
      · exact (h.idxOf_lt_of_leads hk hjk).1
    exact lt_irrefl _ (h.idxOf_lt_of_leads hj hjj).2
  · rintro ⟨hk, hclear⟩
    obtain ⟨number, hn⟩ := ht.exists_number
    induction hm : number k using Nat.strong_induction_on generalizing k with
    | _ m ih =>
      subst hm
      refine (hmem k).mpr ⟨hk, fun j hj => ?_⟩
      exact ih (number j) (hn j k hj hclear) (ht.before_lt j k hj)
        (fun hkn => hclear (hkn.of_before hj)) rfl

end Visited

end Traversal

end Makespan
