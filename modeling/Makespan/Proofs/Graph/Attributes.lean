import Makespan.Policy.Order
import Makespan.Proofs.Graph.WellFormed

/-! Derived attributes do not interfere. Each traversal reads the edges and what it writes itself, so
that a policy finds the same ranks however much else was derived, on graphs with cycles too. -/

namespace Makespan

namespace DescendantPass

theorem step_congr {g g' : Graph} (hp : ∀ k, g'.parents k = g.parents k) (s : DescendantPass) :
    s.step g' = s.step g := by
  unfold step
  cases s.queue with
  | nil => rfl
  | cons k rest => simp only [hp]

theorem run_congr {g g' : Graph} (hp : ∀ k, g'.parents k = g.parents k) (n : Nat)
    (s : DescendantPass) : s.run g' n = s.run g n := by
  induction n generalizing s with
  | zero => rfl
  | succ n ih =>
    unfold run
    cases s.queue with
    | nil => rfl
    | cons k rest => rw [step_congr hp, ih]

end DescendantPass

namespace Graph

theorem start_deriveLevels (g : Graph) (tails : List TaskKey) :
    DescendantPass.start g.deriveLevels tails = DescendantPass.start g tails := by
  have hwaiting : g.deriveLevels.nodes.map (·.children.length) =
      g.nodes.map (·.children.length) := by
    refine Array.ext_getElem? fun k => ?_
    simp [deriveLevels, Option.map_map, Function.comp_def]
  have hsets : g.deriveLevels.nodes.map (·.descendants) = g.nodes.map (·.descendants) := by
    refine Array.ext_getElem? fun k => ?_
    simp [deriveLevels, Option.map_map, Function.comp_def]
  simp only [DescendantPass.start, hwaiting, hsets]

/-- The traversal from the tails takes no notice of levels. -/
theorem run_deriveLevels (g : Graph) (tails : List TaskKey) (n : Nat) :
    (DescendantPass.start g.deriveLevels tails).run g.deriveLevels n =
      (DescendantPass.start g tails).run g n := by
  rw [start_deriveLevels, DescendantPass.run_congr (parents_of_outline g.outline_deriveLevels)]

theorem descendantPass_deriveLevels (g : Graph) (tails : List TaskKey) :
    g.deriveLevels.descendantPass tails = g.descendantPass tails := by
  unfold descendantPass
  rw [run_deriveLevels, size_of_outline g.outline_deriveLevels]

theorem level_deriveLevels (g : Graph) (k : TaskKey) :
    g.deriveLevels.nodes[k]?.map (·.level) =
      g.nodes[k]?.map fun _ => (g.levelPass g.roots).levels.getD k none := by
  simp [deriveLevels, Option.map_map, Function.comp_def]

theorem level_deriveDescendants (g : Graph) (k : TaskKey) :
    g.deriveDescendants.nodes[k]?.map (·.level) = g.nodes[k]?.map (·.level) := by
  simp [deriveDescendants, Option.map_map, Function.comp_def]

theorem descendants_deriveDescendants (g : Graph) (k : TaskKey) :
    g.deriveDescendants.nodes[k]?.map (·.descendants) =
      g.nodes[k]?.map fun _ => (g.descendantPass g.tails).sets.getD k .empty := by
  simp [deriveDescendants, Option.map_map, Function.comp_def]

/-- A policy ranks by the runtime, the level or the descendants, and by nothing else. -/
theorem rankOf_congr {g g' : Graph} {policy : Policy} {k : TaskKey}
    (ht : g'.nodes[k]?.map (·.task) = g.nodes[k]?.map (·.task))
    (hl : policy.required.levels = true → g'.nodes[k]?.map (·.level) = g.nodes[k]?.map (·.level))
    (hd : policy.required.descendants = true →
      g'.nodes[k]?.map (·.descendants) = g.nodes[k]?.map (·.descendants)) :
    policy.rankOf g' k = policy.rankOf g k := by
  unfold Policy.rankOf
  cases policy with
  | shortestFirst =>
    have h := congrArg (Option.map fun t : Task => t.runtime.rank) ht
    rw [Option.map_map, Option.map_map] at h
    exact congrArg (·.getD 0) h
  | levelBased =>
    have h := congrArg (Option.map fun l : Option Nat => (l.getD Policy.lastLevel : Int)) (hl rfl)
    rw [Option.map_map, Option.map_map] at h
    exact congrArg (·.getD 0) h
  | subsequentTasks =>
    have h := congrArg (Option.map fun s : KeySet => -(s.size : Int)) (hd rfl)
    rw [Option.map_map, Option.map_map] at h
    exact congrArg (·.getD 0) h

theorem preprocess_eq_ok_iff {g g' : Graph} {attributes : Attributes} :
    g.preprocess attributes = .ok g' ↔ g.preprocessed = false ∧
      (let b := if attributes.levels then g.bounded.deriveLevels else g.bounded
        if attributes.descendants then b.deriveDescendants else b) = g' := by
  unfold preprocess
  cases g.preprocessed <;> simp

/-- Attributes that a policy does not sort by change no rank. -/
theorem rankOf_preprocess_all {g g' g'' : Graph} {policy : Policy}
    (h : g.preprocess policy.required = .ok g') (h' : g.preprocess .all = .ok g'') (k : TaskKey) :
    policy.rankOf g'' k = policy.rankOf g' k := by
  obtain ⟨-, rfl⟩ := preprocess_eq_ok_iff.mp h
  obtain ⟨-, rfl⟩ := preprocess_eq_ok_iff.mp h'
  have hboth : g.bounded.deriveLevels.deriveDescendants.outline = g.bounded.outline :=
    (outline_deriveDescendants _).trans (outline_deriveLevels _)
  cases policy with
  | shortestFirst =>
    exact rankOf_congr (task_of_outline hboth k) (fun hc => by cases hc) fun hc => by cases hc
  | levelBased =>
    refine rankOf_congr (g := g.bounded.deriveLevels) ?_ (fun _ => ?_) fun hc => by cases hc
    · exact task_of_outline (outline_deriveDescendants _) k
    · exact level_deriveDescendants _ k
  | subsequentTasks =>
    show Policy.subsequentTasks.rankOf g.bounded.deriveLevels.deriveDescendants k = _
    refine rankOf_congr (g := g.bounded.deriveDescendants) ?_ (fun hc => by cases hc) fun _ => ?_
    · exact task_of_outline (hboth.trans (outline_deriveDescendants _).symm) k
    · have hnodes : ∀ s : KeySet, g.bounded.deriveLevels.nodes[k]?.map (fun _ => s) =
          g.bounded.nodes[k]?.map fun _ => s := by
        simp [deriveLevels, Option.map_map, Function.comp_def]
      have htails : g.bounded.deriveLevels.tails = g.bounded.tails := rfl
      rw [descendants_deriveDescendants, descendants_deriveDescendants, htails,
        descendantPass_deriveLevels]
      exact hnodes _

end Graph

end Makespan
