import Makespan.Proofs.Graph.Attributes
import Makespan.Proofs.Graph.Traversal

/-! What is derived for a graph. A task that no cycle leads to has a level, one more than the highest of
its parents; any other task is raised by those of its parents that no cycle leads to. The descendants
of a task are those of its children from which no cycle is reached, and all the tasks that these come
before. -/

namespace Makespan

/-- Sets with the same members are equal. -/
theorem KeySet.ext {s t : KeySet} (h : ∀ k, k ∈ s ↔ k ∈ t) : s = t := by
  obtain ⟨xs, hx⟩ := s
  obtain ⟨ys, hy⟩ := t
  have hperm : xs.Perm ys := (List.perm_ext_iff_of_nodup hx.nodup hy.nodup).mpr h
  obtain rfl : xs = ys := hperm.eq_of_pairwise (fun _ _ _ _ hab hba => absurd hab hba.asymm) hx hy
  rfl

/-! ## Levels as a traversal along the edges -/

namespace LevelPass

def state (s : LevelPass) : Traversal.State (Option Nat) := ⟨s.waiting, s.levels, s.queue⟩

end LevelPass

/-- Hands one more than its level from each task to its children. -/
def Graph.downward (g : Graph) : Traversal (Option Nat) where
  size := g.size
  before := g.parents
  after := g.children
  hand _ level := LevelPass.raise (level.getD 1 + 1)

namespace LevelPass

theorem state_step (g : Graph) (s : LevelPass) : (s.step g).state = g.downward.step s.state := by
  have hq : s.state.queue = s.queue := rfl
  unfold step Traversal.step
  rw [hq]
  cases s.queue with
  | nil => rfl
  | cons k rest => exact (List.foldl_hom state fun _ _ => rfl).symm

theorem state_run (g : Graph) (n : Nat) (s : LevelPass) :
    (s.run g n).state = g.downward.run n s.state := by
  induction n generalizing s with
  | zero => rfl
  | succ n ih =>
    have hq : s.state.queue = s.queue := rfl
    unfold run Traversal.run
    rw [hq]
    cases s.queue with
    | nil => rfl
    | cons k rest => exact (ih (s.step g)).trans (congrArg _ (state_step g s))

/-! ## What raising comes to -/

theorem raise_le_iff {level bound : Nat} {old : Option Nat} :
    (∀ l ∈ raise level old, l ≤ bound) ↔ level ≤ bound ∧ ∀ l ∈ old, l ≤ bound := by
  cases old with
  | none => simp [raise]
  | some current =>
    unfold raise
    by_cases h : current < level
    · simp [h]
      omega
    · simp [h]
      omega

theorem isSome_raise (level : Nat) (old : Option Nat) : (raise level old).isSome = true := by
  cases old with
  | none => rfl
  | some current => by_cases h : current < level <;> simp [raise, h]

theorem raiseAll_le_iff (f : TaskKey → Nat) (ks : List TaskKey) (old : Option Nat) (bound : Nat) :
    (∀ l ∈ ks.foldl (fun l k => raise (f k) l) old, l ≤ bound) ↔
      (∀ l ∈ old, l ≤ bound) ∧ ∀ k ∈ ks, f k ≤ bound := by
  induction ks generalizing old with
  | nil => simp
  | cons k ks ih =>
    rw [List.foldl_cons, ih, raise_le_iff, List.forall_mem_cons]
    tauto

theorem isSome_raiseAll (f : TaskKey → Nat) (ks : List TaskKey) {old : Option Nat}
    (h : old.isSome = true ∨ ks ≠ []) :
    (ks.foldl (fun l k => raise (f k) l) old).isSome = true := by
  induction ks generalizing old with
  | nil => simpa using h
  | cons k ks ih => exact ih (Or.inl (isSome_raise _ _))

/-- The level of a task with the given parents after those in `before` have handed on theirs. -/
def raised (level : TaskKey → Nat) (parents before : List TaskKey) : Option Nat :=
  before.foldl (fun l j => raise (level j + 1) l) (if parents = [] then some 1 else none)

variable (level : TaskKey → Nat) (parents before : List TaskKey)

theorem isSome_raised (h : parents = [] ∨ before ≠ []) :
    (raised level parents before).isSome = true := by
  refine isSome_raiseAll _ _ (h.imp_left fun hp => ?_)
  rw [if_pos hp]
  rfl

theorem raised_of_nil (h : parents ≠ []) : raised level parents [] = none := if_neg h

theorem raised_le_iff {bound : Nat} : (∀ l ∈ raised level parents before, l ≤ bound) ↔
    (parents = [] → 0 < bound) ∧ ∀ j ∈ before, level j < bound := by
  unfold raised
  rw [raiseAll_le_iff]
  simp only [Nat.succ_le_iff]
  refine and_congr_left fun _ => ?_
  by_cases hp : parents = [] <;> simp [hp, Nat.succ_le_iff]

end LevelPass

namespace Graph

/-- The tasks can be numbered so that numbers grow along the edges. -/
def Acyclic (g : Graph) : Prop :=
  ∃ number : TaskKey → Nat, ∀ j k, j ∈ g.parents k → number j < number k

/-- One task comes before another, directly or through others. -/
def Ancestor (g : Graph) : TaskKey → TaskKey → Prop := Relation.TransGen fun j k => j ∈ g.parents k

/-- A task on a cycle, or downstream of one. -/
def Tangled (g : Graph) (k : TaskKey) : Prop := ∃ j, g.Ancestor j j ∧ (j = k ∨ g.Ancestor j k)

/-- A task on a cycle, or upstream of one. -/
def ReachesCycle (g : Graph) (k : TaskKey) : Prop :=
  ∃ j, g.Ancestor j j ∧ (j = k ∨ g.Ancestor k j)

variable {g : Graph}

/-- What grows along the edges grows from every task to those that it comes before. -/
theorem Ancestor.lt_of_edges {f : TaskKey → Nat} (hf : ∀ j k, j ∈ g.parents k → f j < f k)
    {j k : TaskKey} (h : g.Ancestor j k) : f j < f k := Traversal.Leads.lt (t := g.downward) hf h

/-- Whatever leads to a task is as clear of cycles as the task. -/
theorem not_tangled_of_parent {j k : TaskKey} (hk : ¬ g.Tangled k) (hj : j ∈ g.parents k) :
    ¬ g.Tangled j :=
  fun h => hk (Traversal.Knotted.of_before (t := g.downward) h hj)

/-- What is on or behind a cycle waits for something that is so too. -/
theorem Tangled.exists_parent {k : TaskKey} (h : g.Tangled k) :
    ∃ j ∈ g.parents k, g.Tangled j := by
  obtain ⟨i, hcycle, hik⟩ := h
  have hbefore : g.Ancestor i k := by
    rcases hik with rfl | hik
    · exact hcycle
    · exact hik
  obtain ⟨j, hij, hj⟩ := Relation.TransGen.tail'_iff.mp hbefore
  exact ⟨j, hj, i, hcycle, (Relation.reflTransGen_iff_eq_or_transGen.mp hij).imp_left Eq.symm⟩

theorem Tangled.lt_size {k : TaskKey} (h : g.Tangled k) : k < g.size := by
  obtain ⟨j, hj, -⟩ := h.exists_parent
  exact lt_of_mem_parents hj

theorem tangled_of_outline {g' : Graph} (h : g'.outline = g.outline) (k : TaskKey) :
    g'.Tangled k ↔ g.Tangled k := by
  have hancestor : g'.Ancestor = g.Ancestor := by
    unfold Ancestor
    simp only [parents_of_outline h]
  rw [Tangled, Tangled, hancestor]

theorem WellFormed.downward_mirrored (hg : g.WellFormed) : g.downward.Mirrored where
  mirror := hg.mirror
  after_nodup := hg.children_nodup
  before_nodup := hg.parents_nodup
  after_lt _ _ := hg.child_lt
  before_lt _ _ := hg.parent_lt

/-- At the start the roots have level 1 and all other tasks none. -/
theorem Underived.start_levels (hu : g.Underived) {k : TaskKey} (hk : k < g.size) :
    (LevelPass.start g g.findRoots).levels[k]? =
      some (if g.parents k = [] then some 1 else none) := by
  obtain ⟨n, hn⟩ := exists_node hk
  have hnone : (g.nodes.map (·.level))[k]? = some none := by
    rw [Array.getElem?_map, hn, Option.map_some, (hu n (Array.mem_of_getElem? hn)).1]
  show (g.findRoots.foldl _ _)[k]? = _
  rw [Traversal.getElem?_foldl_modify _ g.findRoots_nodup, hnone, Option.map_some]
  simp only [mem_findRoots, hk, true_and]
  rfl

/-- The traversal from the roots before its first visit. -/
theorem levelPass_start (hu : g.Underived) :
    g.downward.Visited (fun k => if g.parents k = [] then some 1 else none) []
      (LevelPass.start g g.findRoots).state := by
  refine .start g.findRoots_nodup (fun _ => mem_findRoots) (fun k hk => ?_)
    fun _ => hu.start_levels
  obtain ⟨n, hn⟩ := exists_node hk
  show (g.nodes.map (·.parents.length))[k]? = some (g.parents k).length
  rw [Array.getElem?_map, hn, parents_of_getElem? hn]
  rfl

/-- The traversal from the roots visits the tasks that no cycle leads to. -/
theorem levelPass_visited (hg : g.WellFormed) (hu : g.Underived) :
    ∃ done, g.downward.Visited (fun k => if g.parents k = [] then some 1 else none) done
      (g.levelPass g.findRoots).state ∧ ∀ k, k ∈ done ↔ k < g.size ∧ ¬ g.Tangled k := by
  have hm := hg.downward_mirrored
  obtain ⟨done, h, hq⟩ := (levelPass_start hu).run hm (n := g.size) (Nat.le_add_left _ _)
  rw [← LevelPass.state_run] at h hq
  exact ⟨done, h, fun k => h.mem_done_iff hq hm⟩

/-- A task has a level if it has no parents, or one that no cycle leads to. It is the least level
above those of the parents that no cycle leads to. -/
def IsLeveling (g : Graph) (level? : TaskKey → Option Nat) : Prop :=
  ∀ k < g.size,
    ((level? k).isSome = true ↔ g.parents k = [] ∨ ∃ j ∈ g.parents k, ¬ g.Tangled j) ∧
    ∀ bound, (∀ l ∈ level? k, l ≤ bound) ↔ (g.parents k = [] → 0 < bound) ∧
      ∀ j ∈ g.parents k, ¬ g.Tangled j → (level? j).getD 1 < bound

theorem exists_leveling (hg : g.WellFormed) (hu : g.Underived) :
    ∃ level?, (∀ k < g.size, (g.levelPass g.findRoots).levels[k]? = some (level? k)) ∧
      g.IsLeveling level? := by
  obtain ⟨done, h, hdone⟩ := levelPass_visited hg hu
  let levels := (g.levelPass g.findRoots).levels
  let level? (k : TaskKey) : Option Nat := levels.getD k none
  let level (k : TaskKey) : Nat := (level? k).getD 1
  let before (k : TaskKey) : List TaskKey := done.filter (· ∈ g.parents k)
  have hmem : ∀ j k, j ∈ before k ↔ j ∈ g.parents k ∧ ¬ g.Tangled j := by
    intro j k
    rw [List.mem_filter, hdone, decide_eq_true_eq]
    constructor
    · exact fun ⟨⟨_, hclear⟩, hj⟩ => ⟨hj, hclear⟩
    · exact fun ⟨hj, hclear⟩ => ⟨⟨hg.parent_lt hj, hclear⟩, hj⟩
  have hvalue : ∀ k < g.size,
      levels[k]? = some (LevelPass.raised level (g.parents k) (before k)) := h.values
  have hget : ∀ k < g.size, level? k = LevelPass.raised level (g.parents k) (before k) := by
    intro k hk
    show levels.getD k none = _
    rw [Array.getD_eq_getD_getElem?, hvalue k hk, Option.getD_some]
  refine ⟨level?, fun k hk => by rw [hget k hk]; exact hvalue k hk,
    fun k hk => ⟨?_, fun bound => ?_⟩⟩
  · rw [hget k hk]
    constructor
    · intro hsome
      by_contra hnone
      obtain ⟨hne, hclear⟩ := not_or.mp hnone
      have hnil : before k = [] := List.eq_nil_iff_forall_not_mem.mpr fun j hj =>
        hclear ⟨j, (hmem j k).mp hj⟩
      rw [hnil, LevelPass.raised_of_nil _ _ hne] at hsome
      cases hsome
    · rintro (hp | ⟨j, hj⟩)
      · exact LevelPass.isSome_raised _ _ _ (Or.inl hp)
      · exact LevelPass.isSome_raised _ _ _ (Or.inr (List.ne_nil_of_mem ((hmem j k).mpr hj)))
  · rw [hget k hk, LevelPass.raised_le_iff]
    simp only [hmem, and_imp]
    rfl

theorem Acyclic.not_tangled (ha : g.Acyclic) (k : TaskKey) : ¬ g.Tangled k := by
  obtain ⟨number, hn⟩ := ha
  exact Traversal.not_knotted (t := g.downward) hn k

/-- Where no task comes before itself, each gets the least level above those of its parents. -/
theorem Acyclic.exists_levels (hg : g.WellFormed) (hu : g.Underived) (ha : g.Acyclic) :
    ∃ level : TaskKey → Nat,
      (∀ k < g.size, (g.levelPass g.findRoots).levels[k]? = some (some (level k))) ∧
      ∀ k < g.size, ∀ bound, level k ≤ bound ↔ 0 < bound ∧ ∀ j ∈ g.parents k, level j < bound := by
  obtain ⟨level?, hlevel, hspec⟩ := exists_leveling hg hu
  have hsome : ∀ k < g.size, level? k = some ((level? k).getD 1) := by
    intro k hk
    have h : (level? k).isSome = true := by
      rw [(hspec k hk).1]
      by_cases hp : g.parents k = []
      · exact Or.inl hp
      · obtain ⟨j, hj⟩ := List.exists_mem_of_ne_nil _ hp
        exact Or.inr ⟨j, hj, ha.not_tangled j⟩
    obtain ⟨l, hl⟩ := Option.isSome_iff_exists.mp h
    rw [hl]
    rfl
  refine ⟨fun k => (level? k).getD 1, fun k hk => by rw [hlevel k hk, ← hsome k hk],
    fun k hk bound => ?_⟩
  have h := (hspec k hk).2 bound
  rw [hsome k hk] at h
  simp only [Option.mem_some_iff, forall_eq', ha.not_tangled, not_false_iff, true_imp_iff] at h
  rw [h]
  -- a task with parents is above one of them
  refine and_congr_left fun hb => ⟨fun hpos => ?_, fun hpos _ => hpos⟩
  by_cases hp : g.parents k = []
  · exact hpos hp
  · obtain ⟨j, hj⟩ := List.exists_mem_of_ne_nil _ hp
    exact (Nat.zero_le _).trans_lt (hb j hj)

end Graph

/-! ## Descendants as a traversal against the edges -/

def DescendantPass.state (s : DescendantPass) : Traversal.State KeySet :=
  ⟨s.waiting, s.sets, s.queue⟩

/-- Hands its descendants and itself from each task to its parents. -/
def Graph.upward (g : Graph) : Traversal KeySet where
  size := g.size
  before := g.children
  after := g.parents
  hand k inherited := (·.union (inherited.insert k))

namespace DescendantPass

theorem state_step (g : Graph) (s : DescendantPass) :
    (s.step g).state = g.upward.step s.state := by
  have hq : s.state.queue = s.queue := rfl
  unfold step Traversal.step
  rw [hq]
  cases s.queue with
  | nil => rfl
  | cons k rest => exact (List.foldl_hom state fun _ _ => rfl).symm

theorem state_run (g : Graph) (n : Nat) (s : DescendantPass) :
    (s.run g n).state = g.upward.run n s.state := by
  induction n generalizing s with
  | zero => rfl
  | succ n ih =>
    have hq : s.state.queue = s.queue := rfl
    unfold run Traversal.run
    rw [hq]
    cases s.queue with
    | nil => rfl
    | cons k rest => exact (ih (s.step g)).trans (congrArg _ (state_step g s))

/-- What is handed to a task by its children: they themselves and their descendants. -/
theorem mem_unionAll (f : TaskKey → KeySet) (ks : List TaskKey) (s : KeySet) (j : TaskKey) :
    j ∈ ks.foldl (fun s k => s.union ((f k).insert k)) s ↔
      j ∈ s ∨ ∃ k ∈ ks, j = k ∨ j ∈ f k := by
  induction ks generalizing s with
  | nil => simp
  | cons k ks ih =>
    rw [List.foldl_cons, ih, List.exists_mem_cons_iff, KeySet.mem_union, KeySet.mem_insert,
      or_assoc]

end DescendantPass

namespace Graph

variable {g : Graph}

theorem mem_findTails {k : TaskKey} : k ∈ g.findTails ↔ k < g.size ∧ g.children k = [] := by
  simp [findTails]

theorem findTails_nodup (g : Graph) : g.findTails.Nodup := List.nodup_range.filter _

theorem WellFormed.upward_mirrored (hg : g.WellFormed) : g.upward.Mirrored where
  mirror j k := (hg.mirror k j).symm
  after_nodup := hg.parents_nodup
  before_nodup := hg.children_nodup
  after_lt _ _ := hg.parent_lt
  before_lt _ _ := hg.child_lt

theorem WellFormed.upward_leads_iff (hg : g.WellFormed) {j k : TaskKey} :
    g.upward.Leads j k ↔ g.Ancestor k j := by
  have hswap : (fun j k => j ∈ g.children k) = Function.swap fun j k => j ∈ g.parents k := by
    funext j k
    exact propext (hg.mirror k j)
  show Relation.TransGen (fun j k => j ∈ g.children k) j k ↔ _
  rw [hswap, Relation.transGen_swap]
  rfl

theorem WellFormed.upward_knotted_iff (hg : g.WellFormed) {k : TaskKey} :
    g.upward.Knotted k ↔ g.ReachesCycle k := by
  simp only [Traversal.Knotted, ReachesCycle, hg.upward_leads_iff]

/-- One task comes before another directly, or comes directly before one that does. -/
theorem WellFormed.ancestor_iff_child (hg : g.WellFormed) {j k : TaskKey} :
    g.Ancestor k j ↔ ∃ c ∈ g.children k, j = c ∨ g.Ancestor c j := by
  unfold Ancestor
  rw [Relation.TransGen.head'_iff]
  refine exists_congr fun c => ?_
  rw [hg.mirror, Relation.reflTransGen_iff_eq_or_transGen]

theorem WellFormed.ancestor_iff_clear_child (hg : g.WellFormed) (ha : ∀ j, ¬ g.Ancestor j j)
    {j k : TaskKey} : g.Ancestor k j ↔
      ∃ c ∈ g.children k, ¬ g.ReachesCycle c ∧ (j = c ∨ g.Ancestor c j) := by
  rw [hg.ancestor_iff_child]
  refine exists_congr fun c => and_congr_right fun _ => (and_iff_right ?_).symm
  rintro ⟨i, hi, -⟩
  exact ha i hi

theorem ReachesCycle.of_child (hg : g.WellFormed) {c k : TaskKey} (h : g.ReachesCycle c)
    (hc : c ∈ g.children k) : g.ReachesCycle k :=
  hg.upward_knotted_iff.mp ((hg.upward_knotted_iff.mpr h).of_before hc)

/-- The traversal from the tails before its first visit. -/
theorem descendantPass_start (hu : g.Underived) :
    g.upward.Visited (fun _ => .empty) [] (DescendantPass.start g g.findTails).state := by
  refine .start g.findTails_nodup (fun _ => mem_findTails) (fun k hk => ?_) fun k hk => ?_
  · obtain ⟨n, hn⟩ := exists_node hk
    show (g.nodes.map (·.children.length))[k]? = some (g.children k).length
    simp [children, hn]
  · obtain ⟨n, hn⟩ := exists_node hk
    show (g.nodes.map (·.descendants))[k]? = some .empty
    rw [Array.getElem?_map, hn, Option.map_some, (hu n (Array.mem_of_getElem? hn)).2]

/-- The traversal from the tails visits the tasks from which no cycle is reached. -/
theorem descendantPass_visited (hg : g.WellFormed) (hu : g.Underived) :
    ∃ done, g.upward.Visited (fun _ => .empty) done (g.descendantPass g.findTails).state ∧
      ∀ k, k ∈ done ↔ k < g.size ∧ ¬ g.ReachesCycle k := by
  have hm := hg.upward_mirrored
  obtain ⟨done, h, hq⟩ := (descendantPass_start hu).run hm (n := g.size) (Nat.le_add_left _ _)
  rw [← DescendantPass.state_run] at h hq
  refine ⟨done, h, fun k => (h.mem_done_iff hq hm).trans ?_⟩
  exact and_congr_right fun _ => not_congr hg.upward_knotted_iff

/-- The descendants of a task are its children from which no cycle is reached, and all that these
come before. -/
theorem exists_set (hg : g.WellFormed) (hu : g.Underived) {k : TaskKey} (hk : k < g.size) :
    ∃ set, (g.descendantPass g.findTails).sets[k]? = some set ∧
      ∀ j, j ∈ set ↔ ∃ c ∈ g.children k, ¬ g.ReachesCycle c ∧ (j = c ∨ g.Ancestor c j) := by
  obtain ⟨done, h, hdone⟩ := descendantPass_visited hg hu
  let sets := (g.descendantPass g.findTails).sets
  have hvalue : ∀ k < g.size, sets[k]? = some ((done.filter (· ∈ g.children k)).foldl
      (fun s j => s.union ((sets.getD j .empty).insert j)) .empty) := h.values
  have hmem : ∀ k < g.size, ∀ j, j ∈ sets.getD k .empty ↔
      ∃ c ∈ g.children k, ¬ g.ReachesCycle c ∧ (j = c ∨ j ∈ sets.getD c .empty) := by
    intro k hk j
    rw [Array.getD_eq_getD_getElem?, hvalue k hk, Option.getD_some, DescendantPass.mem_unionAll]
    simp only [KeySet.not_mem_empty, false_or]
    refine exists_congr fun c => ?_
    rw [List.mem_filter, decide_eq_true_eq, hdone, ← and_assoc]
    refine and_congr_left fun _ => ?_
    constructor
    · rintro ⟨⟨-, hclear⟩, hc⟩
      exact ⟨hc, hclear⟩
    · rintro ⟨hc, hclear⟩
      exact ⟨⟨hg.child_lt hc, hclear⟩, hc⟩
  -- the sets of the visited tasks are complete, by induction from the tails on
  have hclosed : ∀ c < g.size, ¬ g.ReachesCycle c →
      ∀ j, j ∈ sets.getD c .empty ↔ g.Ancestor c j := by
    obtain ⟨number, hn⟩ := hg.upward_mirrored.exists_number
    intro c hc hclear
    induction hm : number c using Nat.strong_induction_on generalizing c with
    | _ m ih =>
      subst hm
      intro j
      rw [hmem c hc, hg.ancestor_iff_child]
      refine exists_congr fun d => and_congr_right fun hd => ?_
      have hclear' : ¬ g.ReachesCycle d := fun hd' => hclear (hd'.of_child hg hd)
      have hless := hn d c hd fun hknot => hclear (hg.upward_knotted_iff.mp hknot)
      rw [ih (number d) hless d (hg.child_lt hd) hclear' rfl]
      exact and_iff_right hclear'
  refine ⟨_, hvalue k hk, fun j => ?_⟩
  have hset := hmem k hk j
  rw [Array.getD_eq_getD_getElem?, hvalue k hk, Option.getD_some] at hset
  rw [hset]
  refine exists_congr fun c => and_congr_right fun hc => and_congr_right fun hclear => ?_
  rw [hclosed c (hg.child_lt hc) hclear]

theorem Acyclic.not_ancestor_self (ha : g.Acyclic) (k : TaskKey) : ¬ g.Ancestor k k :=
  fun hk => ha.not_tangled k ⟨k, hk, Or.inl rfl⟩

/-- Where no task comes before itself, the descendants of a task are all those that it comes
before. -/
theorem exists_descendants (hg : g.WellFormed) (hu : g.Underived) (ha : ∀ j, ¬ g.Ancestor j j)
    {k : TaskKey} (hk : k < g.size) : ∃ set, (g.descendantPass g.findTails).sets[k]? = some set ∧
      ∀ j, j ∈ set ↔ g.Ancestor k j := by
  obtain ⟨set, hset, hmem⟩ := exists_set hg hu hk
  exact ⟨set, hset, fun j => (hmem j).trans (hg.ancestor_iff_clear_child ha).symm⟩

end Graph

end Makespan
