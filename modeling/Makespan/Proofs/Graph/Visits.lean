import Makespan.Proofs.Graph.Derived

/-! What each visit of a traversal finds. The tasks before a task were all visited before it is, and
the tasks after it were not. So a visit counts down from numbers above zero only, no task is queued
or visited a second time, and the value of a visited task stays as it is. -/

namespace Makespan

namespace Traversal

variable {α : Type}

/-- The tasks that are visited first; each stands at the head of the queue when its turn comes. -/
def visits (state : Nat → State α) (n : Nat) : List TaskKey :=
  (List.range n).filterMap fun i => (state i).queue.head?

/-- What is to be expected of a traversal whose state is `state n` after `n` visits, and
`midway n front` within the next visit, when that has reached the tasks in `front`. -/
structure Orderly (t : Traversal α) (state : Nat → State α)
    (midway : Nat → List TaskKey → State α) : Prop where
  /-- A visit ends when all tasks after the visited one have been reached. -/
  whole : ∀ n k rest, (state n).queue = k :: rest → state (n + 1) = midway n (t.after k)
  known : ∀ n, ∀ k ∈ (state n).queue, k < t.size
  /-- What was ever queued has been visited or is still queued. -/
  once : ∀ n, (visits state n ++ (state n).queue).Nodup
  /-- There are no more visits than tasks. -/
  ends : ∀ n, t.size ≤ n → (state n).queue = []
  /-- A task that a visit reaches has a place, has not been visited, and still counts the one that
  is. -/
  counted : ∀ n k rest, (state n).queue = k :: rest →
    ∀ front j back, t.after k = front ++ j :: back →
      j < t.size ∧ j ∉ visits state (n + 1) ∧
      ∃ left value, (midway n front).waiting[j]? = some (left + 1) ∧
        (midway n front).values[j]? = some value
  /-- The value that a task has when it is visited stays the same. -/
  settled : ∀ n k rest, (state n).queue = k :: rest →
    ∃ value, ∀ m, n ≤ m → (state m).values[k]? = some value

theorem visits_succ (state : Nat → State α) (n : Nat) :
    visits state (n + 1) = visits state n ++ (state n).queue.head?.toList := by
  unfold visits
  rw [List.range_succ, List.filterMap_append]
  cases h : (state n).queue.head? <;> simp [h]

theorem visits_succ_of_queue {state : Nat → State α} {n : Nat} {k : TaskKey} {rest : List TaskKey}
    (hq : (state n).queue = k :: rest) : visits state (n + 1) = visits state n ++ [k] := by
  rw [visits_succ, hq]
  rfl

variable [Inhabited α]

/-- Within the next visit, when the tasks in `front` have been reached. -/
def midway (t : Traversal α) (front : List TaskKey) (s : State α) : State α :=
  match s.queue with
  | [] => s
  | k :: rest =>
    front.foldl (State.reach (t.hand k (s.values.getD k default))) { s with queue := rest }

variable {t : Traversal α} {s : State α}

theorem step_of_nil (hq : s.queue = []) : t.step s = s := by
  unfold step
  rw [hq]

theorem step_eq_midway {k : TaskKey} {rest : List TaskKey} (hq : s.queue = k :: rest) :
    t.step s = t.midway (t.after k) s := by
  unfold step midway
  rw [hq]

/-- Tasks that the visit has not reached are as they were before it. -/
theorem midway_of_not_mem {front : List TaskKey} (hfront : front.Nodup) {j : TaskKey}
    (hj : j ∉ front) : (t.midway front s).waiting[j]? = s.waiting[j]? ∧
      (t.midway front s).values[j]? = s.values[j]? := by
  unfold midway
  cases s.queue with
  | nil => exact ⟨rfl, rfl⟩
  | cons k rest =>
    obtain ⟨hwaiting, hvalues, -⟩ :=
      State.reachAll (t.hand k (s.values.getD k default)) hfront { s with queue := rest }
    exact ⟨(hwaiting j).trans (by simp [hj]), (hvalues j).trans (by simp [hj])⟩

theorem run_of_nil (hq : s.queue = []) (n : Nat) : t.run n s = s := by
  cases n with
  | zero => rfl
  | succ n => rw [run, hq]

theorem run_of_queue {k : TaskKey} {rest : List TaskKey} (hq : s.queue = k :: rest) (n : Nat) :
    t.run (n + 1) s = t.run n (t.step s) := by
  rw [run, hq]

theorem run_succ (t : Traversal α) (n : Nat) (s : State α) :
    t.run (n + 1) s = t.step (t.run n s) := by
  induction n generalizing s with
  | zero =>
    cases hq : s.queue with
    | nil => rw [run_of_nil hq, run_of_nil hq, step_of_nil hq]
    | cons k rest => exact run_of_queue hq 0
  | succ n ih =>
    cases hq : s.queue with
    | nil => rw [run_of_nil hq, run_of_nil hq, step_of_nil hq]
    | cons k rest => rw [run_of_queue hq, run_of_queue hq, ih]

namespace Visited

variable {first : TaskKey → α} {done : List TaskKey}

theorem queued_lt (h : t.Visited first done s) {k : TaskKey} (hk : k ∈ s.queue) : k < t.size :=
  ((h.mem_iff k).mp (List.mem_append_right _ hk)).1

/-- The counter of a task that a visit reaches is not zero, for it counts the visited task. -/
theorem counts (h : t.Visited first done s) (ht : t.Mirrored) {k : TaskKey} {rest : List TaskKey}
    (hq : s.queue = k :: rest) {j : TaskKey} (hj : j ∈ t.after k) :
    ∃ left, s.waiting[j]? = some (left + 1) := by
  have hpos : 0 < (t.before j).countP (· ∉ done) :=
    List.countP_pos_iff.mpr ⟨k, (ht.mirror k j).mp hj, by simpa using h.head_not_done hq⟩
  obtain ⟨left, hleft⟩ := Nat.exists_eq_succ_of_ne_zero hpos.ne'
  exact ⟨left, by rw [h.waiting j (ht.after_lt k j hj), hleft]⟩

theorem counted (h : t.Visited first done s) (ht : t.Mirrored) {k : TaskKey} {rest : List TaskKey}
    (hq : s.queue = k :: rest) {front : List TaskKey} {j : TaskKey} {back : List TaskKey}
    (hsplit : t.after k = front ++ j :: back) :
    j < t.size ∧ j ∉ done ++ [k] ∧
      ∃ left value, (t.midway front s).waiting[j]? = some (left + 1) ∧
        (t.midway front s).values[j]? = some value := by
  have hj : j ∈ t.after k := by simp [hsplit]
  have hlt := ht.after_lt k j hj
  have hnodup := ht.after_nodup k
  rw [hsplit, List.nodup_append] at hnodup
  obtain ⟨hfront, -, hdisjoint⟩ := hnodup
  have hjf : j ∉ front := fun hm => hdisjoint j hm j List.mem_cons_self rfl
  obtain ⟨hwaiting, hvalues⟩ := midway_of_not_mem (t := t) (s := s) hfront hjf
  obtain ⟨left, hleft⟩ := h.counts ht hq hj
  refine ⟨hlt, fun hm => h.after_new ht hq hj ?_, left, _, hwaiting.trans hleft,
    hvalues.trans (h.values j hlt)⟩
  rw [hq, List.append_cons]
  exact List.mem_append_left _ hm

/-- A visit leaves the values of the visited task, and of those visited before, as they are. -/
theorem settled (h : t.Visited first done s) (ht : t.Mirrored) {i : TaskKey}
    (hi : i ∈ done ∨ s.queue.head? = some i) : (t.step s).values[i]? = s.values[i]? := by
  cases hq : s.queue with
  | nil => rw [step_of_nil hq]
  | cons k rest =>
    obtain ⟨-, hvalues, -⟩ := step_of_queue ht hq
    have hold : i ∉ t.after k := by
      intro hm
      refine h.after_new ht hq hm ?_
      rcases hi with hi | hi
      · exact List.mem_append_left _ hi
      · exact List.mem_append_right _ (List.mem_of_head? hi)
    simp [hvalues, hold]

section Run

variable (h : t.Visited first [] s) (ht : t.Mirrored)
include h ht

/-- Those that stood at the head of the queue are the ones that were visited. -/
theorem after (n : Nat) : t.Visited first (visits (fun i => t.run i s) n) (t.run n s) := by
  induction n with
  | zero => exact h
  | succ n ih =>
    rw [run_succ]
    cases hq : (t.run n s).queue with
    | nil => simpa [visits_succ, hq, step_of_nil hq] using ih
    | cons k rest =>
      rw [visits_succ_of_queue hq]
      exact ih.step ht hq

theorem settled_from {n : Nat} {k : TaskKey} {rest : List TaskKey}
    (hq : (t.run n s).queue = k :: rest) {m : Nat} (hm : n ≤ m) :
    (t.run m s).values[k]? = (t.run n s).values[k]? := by
  induction m, hm using Nat.le_induction with
  | base => rfl
  | succ m hm ih =>
    rw [run_succ, ← ih]
    refine (h.after ht m).settled ht ?_
    rcases hm.eq_or_lt with rfl | hlt
    · exact Or.inr (by rw [hq]; rfl)
    · refine Or.inl (List.mem_filterMap.mpr ⟨n, List.mem_range.mpr hlt, ?_⟩)
      rw [hq]
      rfl

theorem orderly : t.Orderly (fun n => t.run n s) fun n front => t.midway front (t.run n s) where
  whole n k rest hq := by rw [run_succ, step_eq_midway hq]
  known n k hk := (h.after ht n).queued_lt hk
  once n := (h.after ht n).nodup
  ends n hn := by
    obtain ⟨-, -, hq⟩ := h.run ht (n := n) (hn.trans (Nat.le_add_left _ _))
    exact hq
  counted n k rest hq front j back hsplit := by
    rw [visits_succ_of_queue hq]
    exact (h.after ht n).counted ht hq hsplit
  settled n k rest hq := by
    have hk : k < t.size := (h.after ht n).queued_lt (by rw [hq]; exact List.mem_cons_self)
    refine ⟨_, fun m hm => (h.settled_from ht hq hm).trans ((h.after ht n).values k hk)⟩

end Run

end Visited

end Traversal

/-! ## Levels and descendants -/

/-- Within the next visit, when the children in `front` have been reached. -/
def LevelPass.midway (front : List TaskKey) (s : LevelPass) : LevelPass :=
  match s.queue with
  | [] => s
  | k :: rest =>
    let level := (s.levels.getD k none).getD 1 + 1
    front.foldl (reach level) { s with queue := rest, visited := s.visited + 1 }

theorem LevelPass.state_midway (g : Graph) (front : List TaskKey) (s : LevelPass) :
    (s.midway front).state = g.downward.midway front s.state := by
  have hq : s.state.queue = s.queue := rfl
  unfold midway Traversal.midway
  rw [hq]
  cases s.queue with
  | nil => rfl
  | cons k rest => exact (List.foldl_hom state fun _ _ => rfl).symm

/-- Within the next visit, when the parents in `front` have been reached. -/
def DescendantPass.midway (front : List TaskKey) (s : DescendantPass) : DescendantPass :=
  match s.queue with
  | [] => s
  | k :: rest =>
    let inherited := (s.sets.getD k .empty).insert k
    front.foldl (reach inherited) { s with queue := rest, visited := s.visited + 1 }

theorem DescendantPass.state_midway (g : Graph) (front : List TaskKey) (s : DescendantPass) :
    (s.midway front).state = g.upward.midway front s.state := by
  have hq : s.state.queue = s.queue := rfl
  unfold midway Traversal.midway
  rw [hq]
  cases s.queue with
  | nil => rfl
  | cons k rest => exact (List.foldl_hom state fun _ _ => rfl).symm

namespace Graph

variable {g : Graph}

/-- A task that is to be visited next has a level: its parents were visited, and raised it. -/
theorem exists_level_of_head {done : List TaskKey} {s : Traversal.State (Option Nat)}
    (h : g.downward.Visited (fun k => if g.parents k = [] then some 1 else none) done s)
    {k : TaskKey} (hk : k ∈ s.queue) : ∃ l, s.values[k]? = some (some l) := by
  obtain ⟨hlt, hdone⟩ := (h.mem_iff k).mp (List.mem_append_right _ hk)
  have hvalue : s.values[k]? = some (LevelPass.raised (fun j => (s.values.getD j none).getD 1)
      (g.parents k) (done.filter (· ∈ g.parents k))) := h.values k hlt
  have hparents : g.parents k = [] ∨ done.filter (· ∈ g.parents k) ≠ [] := by
    by_cases hp : g.parents k = []
    · exact Or.inl hp
    · obtain ⟨j, hj⟩ := List.exists_mem_of_ne_nil _ hp
      exact Or.inr (List.ne_nil_of_mem (List.mem_filter.mpr ⟨hdone j hj, by simpa using hj⟩))
  obtain ⟨l, hl⟩ := Option.isSome_iff_exists.mp (LevelPass.isSome_raised _ _ _ hparents)
  exact ⟨l, by rw [hvalue, hl]⟩

theorem levelPass_orderly (hg : g.WellFormed) (hu : g.Underived) :
    g.downward.Orderly (fun n => ((LevelPass.start g g.findRoots).run g n).state)
      fun n front => (((LevelPass.start g g.findRoots).run g n).midway front).state := by
  simp only [LevelPass.state_midway g, LevelPass.state_run]
  exact (levelPass_start hu).orderly hg.downward_mirrored

/-- The level that a task has when it is to be visited is its level at the end. -/
theorem exists_final_level (hg : g.WellFormed) (hu : g.Underived) {n : Nat} {k : TaskKey}
    {rest : List TaskKey} (hq : ((LevelPass.start g g.findRoots).run g n).queue = k :: rest) :
    ∃ l, ((LevelPass.start g g.findRoots).run g n).levels[k]? = some (some l) ∧
      (g.levelPass g.findRoots).levels[k]? = some (some l) := by
  have horderly := levelPass_orderly hg hu
  obtain ⟨level?, hsettled⟩ := horderly.settled n k rest hq
  have hn : n ≤ g.size := by
    by_contra hlt
    have hnil := horderly.ends n (Nat.le_of_not_le hlt)
    exact List.cons_ne_nil k rest (hq.symm.trans hnil)
  have hvisited := (levelPass_start hu).after hg.downward_mirrored n
  rw [← LevelPass.state_run] at hvisited
  have hk : k ∈ ((LevelPass.start g g.findRoots).run g n).queue := by
    rw [hq]
    exact List.mem_cons_self
  obtain ⟨l, hl⟩ := exists_level_of_head hvisited hk
  refine ⟨l, hl, (hsettled g.size hn).trans ?_⟩
  rw [← hsettled n le_rfl]
  exact hl

theorem descendantPass_orderly (hg : g.WellFormed) (hu : g.Underived) :
    g.upward.Orderly (fun n => ((DescendantPass.start g g.findTails).run g n).state)
      fun n front => (((DescendantPass.start g g.findTails).run g n).midway front).state := by
  simp only [DescendantPass.state_midway g, DescendantPass.state_run]
  exact (descendantPass_start hu).orderly hg.upward_mirrored

theorem upward_deriveLevels (g : Graph) : g.deriveLevels.upward = g.upward := by
  have hparents := funext (parents_of_outline g.outline_deriveLevels)
  have hchildren := funext (children_of_outline g.outline_deriveLevels)
  unfold upward
  rw [hparents, hchildren, size_of_outline g.outline_deriveLevels]

/-- The two traversals of preprocessing, visit by visit, on any graph that a sequence of calls can
build: from the roots for the levels, and from the tails for the descendants, which may find levels
derived already. A task that is to be visited has a level, the one that it keeps. -/
theorem every_visit_is_orderly (ds : List Declaration) :
    let g := (ofDeclarations ds).bounded
    let levels (n : Nat) := (LevelPass.start g g.roots).run g n
    g.downward.Orderly (fun n => (levels n).state)
      (fun n front => ((levels n).midway front).state) ∧
    (∀ n k rest, (levels n).queue = k :: rest → ∃ l, (levels n).levels[k]? = some (some l) ∧
      (g.levelPass g.roots).levels[k]? = some (some l)) ∧
    ∀ b ∈ [g, g.deriveLevels],
      let sets (n : Nat) := (DescendantPass.start b b.tails).run b n
      b.upward.Orderly (fun n => (sets n).state) fun n front => ((sets n).midway front).state := by
  intro g levels
  have hg : g.WellFormed := (ofDeclarations_wellFormed ds).of_outline rfl
  have hu : g.Underived := underived_ofDeclarations ds
  refine ⟨levelPass_orderly hg hu, fun n k rest hq => exists_final_level hg hu hq, fun b hb => ?_⟩
  have hsets := descendantPass_orderly hg hu
  obtain rfl | rfl : b = g ∨ b = g.deriveLevels := by simpa using hb
  · exact hsets
  · simp only [upward_deriveLevels, run_deriveLevels]
    exact hsets

end Graph

end Makespan
