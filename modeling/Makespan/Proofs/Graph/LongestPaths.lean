import Makespan.Proofs.Graph.Derived
import Makespan.Proofs.Graph.Levels

/-! What levels mean. Where no cycle leads, the level of a task is the number of tasks on the
longest path to it; a task on or after a cycle is one above the highest of its parents that are
not. -/

namespace Makespan.Graph

variable {g : Graph}

/-- A directed path that ends at a task. -/
def PathTo (g : Graph) (k : TaskKey) (path : List TaskKey) : Prop :=
  path.IsChain (fun j k => j ∈ g.parents k) ∧ path.getLast? = some k

theorem pathTo_singleton (g : Graph) (k : TaskKey) : g.PathTo k [k] := ⟨.singleton k, rfl⟩

theorem pathTo_snoc_iff {front : List TaskKey} {j k : TaskKey} :
    g.PathTo k (front ++ [j]) ↔ j = k ∧ (front = [] ∨ ∃ i ∈ g.parents k, g.PathTo i front) := by
  unfold PathTo
  rw [List.getLast?_concat, List.isChain_append, Option.some.injEq, and_comm]
  refine and_congr_right fun hjk => ?_
  subst hjk
  rcases List.eq_nil_or_concat front with rfl | ⟨front, i, rfl⟩
  · simp
  · simp [and_comm]

/-- The least number above all of some levels is one above the highest of them. -/
theorem exists_highest {l : Nat} {p : TaskKey → Prop} {level : TaskKey → Nat}
    (hl : ∀ bound, l ≤ bound ↔ ∀ j, p j → level j < bound) (hp : ∃ j, p j) :
    ∃ j, p j ∧ level j + 1 = l ∧ ∀ i, p i → level i ≤ level j := by
  have habove := (hl l).mp le_rfl
  by_contra hnone
  obtain ⟨j, hj⟩ := hp
  have hbelow : l ≤ l - 1 := (hl _).mpr fun i hi => by
    have hlt := habove i hi
    by_contra hle
    refine hnone ⟨i, hi, by omega, fun i' hi' => ?_⟩
    have hlt' := habove i' hi'
    omega
  have hlt := habove j hj
  omega

namespace IsLeveling

variable {level? : TaskKey → Option Nat} (h : g.IsLeveling level?)
include h

theorem exists_level {k : TaskKey} (hk : k < g.size) (hclear : ¬ g.Tangled k) :
    ∃ l, level? k = some l := by
  refine Option.isSome_iff_exists.mp ((h k hk).1.mpr ?_)
  by_cases hp : g.parents k = []
  · exact Or.inl hp
  · obtain ⟨j, hj⟩ := List.exists_mem_of_ne_nil _ hp
    exact Or.inr ⟨j, hj, not_tangled_of_parent hclear hj⟩

theorem level_le_iff {k : TaskKey} {l : Nat} (hk : k < g.size) (hl : level? k = some l)
    (bound : Nat) : l ≤ bound ↔ (g.parents k = [] → 0 < bound) ∧
      ∀ j, j ∈ g.parents k ∧ ¬ g.Tangled j → (level? j).getD 1 < bound := by
  have hk := (h k hk).2 bound
  rw [hl] at hk
  simpa using hk

theorem level_pos {k : TaskKey} {l : Nat} (hk : k < g.size) (hl : level? k = some l) : 0 < l := by
  have habove := (h.level_le_iff hk hl l).mp le_rfl
  by_cases hp : g.parents k = []
  · exact habove.1 hp
  · have hsome : (level? k).isSome = true := by rw [hl]; rfl
    obtain ⟨j, hj⟩ := ((h k hk).1.mp hsome).resolve_left hp
    exact (Nat.zero_le _).trans_lt (habove.2 j hj)

/-- A task with parents and a level is one above the highest of its clear parents. -/
theorem exists_highest_parent {k : TaskKey} {l : Nat} (hk : k < g.size) (hl : level? k = some l)
    (hp : ∃ j ∈ g.parents k, ¬ g.Tangled j) : ∃ j, (j ∈ g.parents k ∧ ¬ g.Tangled j) ∧
      (level? j).getD 1 + 1 = l ∧
      ∀ i, i ∈ g.parents k ∧ ¬ g.Tangled i → (level? i).getD 1 ≤ (level? j).getD 1 := by
  refine exists_highest (fun bound => ?_) hp
  rw [h.level_le_iff hk hl]
  obtain ⟨j, hj, -⟩ := hp
  exact and_iff_right fun hnil => absurd hj (hnil ▸ List.not_mem_nil)

theorem length_le (hg : g.WellFormed) {path : List TaskKey} {k : TaskKey} {l : Nat}
    (hk : k < g.size) (hclear : ¬ g.Tangled k) (hl : level? k = some l) (hpath : g.PathTo k path) :
    path.length ≤ l := by
  induction path using List.reverseRecOn generalizing k l with
  | nil => cases hpath.2
  | append_singleton front j ih =>
    obtain ⟨rfl, rfl | ⟨i, hi, hfront⟩⟩ := pathTo_snoc_iff.mp hpath
    · exact h.level_pos hk hl
    · have hclear' := not_tangled_of_parent hclear hi
      obtain ⟨m, hm⟩ := h.exists_level (hg.parent_lt hi) hclear'
      have hfront := ih (hg.parent_lt hi) hclear' hm hfront
      have hlt := ((h.level_le_iff hk hl l).mp le_rfl).2 i ⟨hi, hclear'⟩
      rw [hm, Option.getD_some] at hlt
      rw [List.length_append, List.length_singleton]
      omega

theorem exists_path (hg : g.WellFormed) {k : TaskKey} {l : Nat} (hk : k < g.size)
    (hclear : ¬ g.Tangled k) (hl : level? k = some l) :
    ∃ path, g.PathTo k path ∧ path.length = l := by
  induction l generalizing k with
  | zero => exact absurd (h.level_pos hk hl) (lt_irrefl _)
  | succ m ih =>
    by_cases hp : g.parents k = []
    · refine ⟨[k], g.pathTo_singleton k, ?_⟩
      have hle : m + 1 ≤ 1 := (h.level_le_iff hk hl 1).mpr
        ⟨fun _ => Nat.one_pos, fun j ⟨hj, _⟩ => by rw [hp] at hj; cases hj⟩
      rw [List.length_singleton]
      omega
    · obtain ⟨i, hi⟩ := List.exists_mem_of_ne_nil _ hp
      obtain ⟨j, ⟨hj, hclear'⟩, hm, -⟩ :=
        h.exists_highest_parent hk hl ⟨i, hi, not_tangled_of_parent hclear hi⟩
      obtain ⟨l, hlj⟩ := h.exists_level (hg.parent_lt hj) hclear'
      rw [hlj, Option.getD_some] at hm
      obtain rfl : l = m := Nat.succ.inj hm
      obtain ⟨path, hpath, hlen⟩ := ih (hg.parent_lt hj) hclear' hlj
      refine ⟨path ++ [k], pathTo_snoc_iff.mpr ⟨rfl, Or.inr ⟨j, hj, hpath⟩⟩, ?_⟩
      rw [List.length_append, List.length_singleton, hlen]

theorem isGreatest_length (hg : g.WellFormed) {k : TaskKey} {l : Nat} (hk : k < g.size)
    (hclear : ¬ g.Tangled k) (hl : level? k = some l) :
    IsGreatest {n | ∃ path, g.PathTo k path ∧ path.length = n} l := by
  refine ⟨h.exists_path hg hk hclear hl, ?_⟩
  rintro n ⟨path, hpath, rfl⟩
  exact h.length_le hg hk hclear hl hpath

/-- With a parent that no cycle leads to, a task is one above the highest of them. -/
theorem isGreatest_parents (hg : g.WellFormed) {k : TaskKey} (hk : k < g.size)
    (hp : ∃ j ∈ g.parents k, ¬ g.Tangled j) :
    ∃ m, IsGreatest {l | ∃ j ∈ g.parents k, ¬ g.Tangled j ∧ level? j = some l} m ∧
      level? k = some (1 + m) := by
  obtain ⟨l, hl⟩ := Option.isSome_iff_exists.mp ((h k hk).1.mpr (Or.inr hp))
  obtain ⟨j, ⟨hj, hclear⟩, hjl, hhighest⟩ := h.exists_highest_parent hk hl hp
  obtain ⟨m, hm⟩ := h.exists_level (hg.parent_lt hj) hclear
  rw [hm, Option.getD_some] at hjl hhighest
  refine ⟨m, ⟨⟨j, hj, hclear, hm⟩, ?_⟩, by rw [hl, ← hjl, Nat.add_comm]⟩
  rintro l' ⟨i, hi, hclear', hil⟩
  have hle := hhighest i ⟨hi, hclear'⟩
  rwa [hil, Option.getD_some] at hle

/-- A task whose parents are all on or after cycles has no level. -/
theorem eq_none {k : TaskKey} (hk : k < g.size) (htangled : g.Tangled k)
    (hp : ∀ j ∈ g.parents k, g.Tangled j) : level? k = none := by
  rw [← Option.not_isSome_iff_eq_none, (h k hk).1]
  rintro (hnil | ⟨j, hj, hclear⟩)
  · obtain ⟨j, hj, -⟩ := htangled.exists_parent
    rw [hnil] at hj
    cases hj
  · exact hclear (hp j hj)

end IsLeveling

/-- Preprocessing leaves the levels that the traversal found. -/
theorem level?_of_preprocess {g g' : Graph} {attributes : Attributes}
    (hl : attributes.levels = true) (h : g.preprocess attributes = .ok g') {k : TaskKey}
    (hk : k < g.size) {l : Option Nat}
    (hpass : (g.bounded.levelPass g.bounded.roots).levels[k]? = some l) : g'.level? k = l := by
  obtain ⟨-, rfl⟩ := preprocess_eq_ok_iff.mp h
  rw [if_pos hl]
  obtain ⟨n, hn⟩ := exists_node (g := g.bounded) hk
  have hderived : g.bounded.deriveLevels.nodes[k]?.map (·.level) = some l := by
    rw [level_deriveLevels, hn, Option.map_some, Array.getD_eq_getD_getElem?, hpass,
      Option.getD_some]
  have hall : (if attributes.descendants then g.bounded.deriveLevels.deriveDescendants
      else g.bounded.deriveLevels).nodes[k]?.map (·.level) = some l := by
    split
    · rw [level_deriveDescendants, hderived]
    · exact hderived
  obtain ⟨n', hn', rfl⟩ := Option.map_eq_some_iff.mp hall
  show Option.bind _ _ = _
  rw [hn', Option.bind_some]

theorem exists_leveling_preprocess (hg : g.WellFormed) (hu : g.Underived)
    (hpre : g.preprocessed = false) {attributes : Attributes} (hl : attributes.levels = true) :
    ∃ g', g.preprocess attributes = .ok g' ∧ g.IsLeveling g'.level? := by
  obtain ⟨level?, hpass, h⟩ := exists_leveling (g := g.bounded) (hg.of_outline rfl) hu
  replace h : g.IsLeveling level? := h
  obtain ⟨g', hg', -⟩ := preprocess_ok hpre attributes
  have heq : ∀ k < g.size, g'.level? k = level? k := fun k hk =>
    level?_of_preprocess hl hg' hk (hpass k hk)
  refine ⟨g', hg', fun k hk => ?_⟩
  obtain ⟨hsome, hbound⟩ := h k hk
  rw [heq k hk]
  refine ⟨hsome, fun bound => (hbound bound).trans (and_congr_right fun _ => ?_)⟩
  exact forall₂_congr fun j hj => by rw [heq j (hg.parent_lt hj)]

/-- Levels after preprocessing, with descendants derived too or not, on any graph that a sequence of
calls can build. The level of a task that no cycle leads to is the number of tasks on the longest
path to it. Any other task is one above the highest of its parents that no cycle leads to; it has no
level if there is none. -/
theorem levels_are_longest_paths (ds : List Declaration) (everything : Bool) :
    let g := ofDeclarations ds
    ∃ g', g.preprocess (if everything then .all else Policy.levelBased.required) = .ok g' ∧
      ∀ k < g.size,
        (¬ g.Tangled k → ∃ l, g'.level? k = some l ∧
          IsGreatest {n | ∃ path, g.PathTo k path ∧ path.length = n} l) ∧
        (g.Tangled k → (∃ j ∈ g.parents k, ¬ g.Tangled j) →
          ∃ m, IsGreatest {l | ∃ j ∈ g.parents k, ¬ g.Tangled j ∧ g'.level? j = some l} m ∧
            g'.level? k = some (1 + m)) ∧
        (g.Tangled k → (∀ j ∈ g.parents k, g.Tangled j) → g'.level? k = none) := by
  intro g
  have hg : g.WellFormed := ofDeclarations_wellFormed ds
  have hlevels : (if everything then .all else Policy.levelBased.required).levels = true := by
    cases everything <;> rfl
  obtain ⟨g', hg', h⟩ := exists_leveling_preprocess hg (underived_ofDeclarations ds)
    (preprocessed_ofDeclarations ds) hlevels
  refine ⟨g', hg', fun k hk => ⟨fun hclear => ?_, fun _ => h.isGreatest_parents hg hk,
    h.eq_none hk⟩⟩
  obtain ⟨l, hl⟩ := h.exists_level hk hclear
  exact ⟨l, hl, h.isGreatest_length hg hk hclear hl⟩

end Makespan.Graph
