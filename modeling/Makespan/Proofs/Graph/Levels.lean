import Makespan.Proofs.Graph.WellFormed

/-! How high a level can be. A visit raises levels to at most one more than there are visited tasks,
and no task is visited twice; so a level is never much above the number of tasks. -/

namespace Makespan

def Graph.level? (g : Graph) (k : TaskKey) : Option Nat := g.nodes[k]?.bind (·.level)

namespace LevelPass

/-- No level is above the bound. -/
def Within (bound : Nat) (levels : Array (Option Nat)) : Prop :=
  ∀ (k : TaskKey) (l : Nat), levels[k]? = some (some l) → l ≤ bound

theorem Within.modify {bound level : Nat} {levels : Array (Option Nat)} (h : Within bound levels)
    (hl : level ≤ bound) (k : TaskKey) : Within bound (levels.modify k (raise level)) := by
  intro j l hj
  rw [Array.getElem?_modify] at hj
  by_cases hk : k = j
  · rw [if_pos hk] at hj
    obtain ⟨old, hold, hraise⟩ := Option.map_eq_some_iff.mp hj
    cases old with
    | none => exact Option.some.inj hraise ▸ hl
    | some current =>
      simp only [raise] at hraise
      by_cases hc : current < level
      · rw [if_pos hc] at hraise
        exact Option.some.inj hraise ▸ hl
      · rw [if_neg hc] at hraise
        exact Option.some.inj hraise ▸ h j current hold
  · rw [if_neg hk] at hj
    exact h j l hj

theorem Within.mono {bound bound' : Nat} {levels : Array (Option Nat)} (h : Within bound levels)
    (hb : bound ≤ bound') : Within bound' levels := fun k l hk => (h k l hk).trans hb

theorem start_within {g : Graph} (hg : ∀ n ∈ g.nodes, n.level = none) (roots : List TaskKey) :
    Within 1 (start g roots).levels := by
  have hnone : Within 1 (g.nodes.map (·.level)) := by
    intro k l hk
    rw [Array.getElem?_map] at hk
    obtain ⟨n, hn, hl⟩ := Option.map_eq_some_iff.mp hk
    rw [hg n (Array.mem_of_getElem? hn)] at hl
    cases hl
  have hfold : ∀ (ks : List TaskKey) (levels : Array (Option Nat)), Within 1 levels →
      Within 1 (ks.foldl (fun levels k => levels.modify k (raise 1)) levels) := by
    intro ks
    induction ks with
    | nil => exact fun levels h => h
    | cons k ks ih => exact fun levels h => ih _ (h.modify le_rfl k)
  exact hfold roots _ hnone

theorem reachAll_within {bound level : Nat} (hl : level ≤ bound) (ks : List TaskKey)
    {s : LevelPass} (h : Within bound s.levels) :
    Within bound (ks.foldl (reach level) s).levels ∧
      (ks.foldl (reach level) s).visited = s.visited := by
  induction ks generalizing s with
  | nil => exact ⟨h, rfl⟩
  | cons k ks ih => exact ih (s := s.reach level k) (h.modify hl k)

/-- A visit raises no level to more than two above the number of tasks visited before. -/
theorem step_within (g : Graph) {s : LevelPass} (h : Within (s.visited + 1) s.levels) :
    Within ((s.step g).visited + 1) (s.step g).levels ∧ (s.step g).visited ≤ s.visited + 1 := by
  unfold step
  cases hq : s.queue with
  | nil => exact ⟨h, Nat.le_succ _⟩
  | cons k rest =>
    have hlevel : (s.levels.getD k none).getD 1 + 1 ≤ s.visited + 1 + 1 := by
      rw [Array.getD_eq_getD_getElem?]
      cases hk : s.levels[k]? with
      | none => simp
      | some level? =>
        cases level? with
        | none => simp
        | some l => simpa using h k l hk
    obtain ⟨hw, hv⟩ := reachAll_within hlevel (g.children k)
      (s := { s with queue := rest, visited := s.visited + 1 }) (h.mono (Nat.le_succ _))
    exact ⟨hv.symm ▸ hw, hv.le⟩

theorem run_within (g : Graph) (n : Nat) {s : LevelPass} (h : Within (s.visited + 1) s.levels) :
    Within (s.visited + n + 1) (s.run g n).levels := by
  induction n generalizing s with
  | zero => exact h
  | succ n ih =>
    unfold run
    split
    · exact h.mono (by omega)
    · obtain ⟨hw, hv⟩ := step_within g h
      exact (ih hw).mono (by omega)

end LevelPass

namespace Graph

theorem levelPass_within {g : Graph} (hg : ∀ n ∈ g.nodes, n.level = none)
    (roots : List TaskKey) : LevelPass.Within (g.size + 1) (g.levelPass roots).levels := by
  have h := LevelPass.run_within g g.size (s := LevelPass.start g roots)
    (LevelPass.start_within hg roots)
  have hzero : (LevelPass.start g roots).visited = 0 := rfl
  rwa [hzero, Nat.zero_add] at h

/-- A graph without levels is preprocessed into one with levels up to one more than it has tasks. -/
theorem level_le_of_preprocess {g g' : Graph} (hg : ∀ n ∈ g.nodes, n.level = none)
    {attributes : Attributes} (h : g.preprocess attributes = .ok g') {n : Node}
    (hn : n ∈ g'.nodes) {l : Nat} (hl : n.level = some l) : l ≤ g.size + 1 := by
  have hlevels : ∀ n ∈ (if attributes.levels then g.bounded.deriveLevels else g.bounded).nodes,
      ∀ l, n.level = some l → l ≤ g.size + 1 := by
    intro n hn l hl
    split at hn
    · obtain ⟨k, hk⟩ := Array.mem_iff_getElem?.mp hn
      rw [deriveLevels, Array.getElem?_mapIdx] at hk
      obtain ⟨m, -, rfl⟩ := Option.map_eq_some_iff.mp hk
      have hlk : (g.bounded.levelPass g.bounded.roots).levels[k]? = some (some l) := by
        have hlk : (g.bounded.levelPass g.bounded.roots).levels.getD k none = some l := hl
        rw [Array.getD_eq_getD_getElem?] at hlk
        cases hget : (g.bounded.levelPass g.bounded.roots).levels[k]? with
        | none => rw [hget] at hlk; cases hlk
        | some level? => rw [hget] at hlk; exact congrArg some hlk
      exact levelPass_within (g := g.bounded) hg _ k l hlk
    · rw [hg n hn] at hl
      cases hl
  unfold preprocess at h
  split at h
  · cases h
  · obtain rfl := Except.ok.inj h
    split at hn
    · obtain ⟨k, hk⟩ := Array.mem_iff_getElem?.mp hn
      rw [deriveDescendants, Array.getElem?_mapIdx] at hk
      obtain ⟨m, hm, rfl⟩ := Option.map_eq_some_iff.mp hk
      exact hlevels m (Array.mem_of_getElem? hm) l hl
    · exact hlevels n hn l hl

/-- Nothing has a level before a graph is preprocessed. -/
theorem level_ofDeclarations (ds : List Declaration) :
    ∀ n ∈ (ofDeclarations ds).nodes, n.level = none :=
  fun n hn => (underived_ofDeclarations ds n hn).1

end Graph

end Makespan
