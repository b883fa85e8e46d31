import Makespan.Proofs.Graph.Derived

/-! What descendants mean. A task from which a cycle is reached never hands its set on, so that a
task has only those descendants that it reaches through a child clear of cycles. Without cycles these
are all the tasks that it reaches; on any graph a task reaches all its descendants, and is none of
them. -/

namespace Makespan.Graph

variable {g : Graph}

def descendants? (g : Graph) (k : TaskKey) : Option KeySet := g.nodes[k]?.map (·.descendants)

/-- Preprocessing leaves the sets that the traversal found. -/
theorem descendants?_of_preprocess {g g' : Graph} {attributes : Attributes}
    (hd : attributes.descendants = true) (h : g.preprocess attributes = .ok g') {k : TaskKey}
    (hk : k < g.size) {set : KeySet}
    (hpass : (g.bounded.descendantPass g.bounded.tails).sets[k]? = some set) :
    g'.descendants? k = some set := by
  obtain ⟨-, rfl⟩ := preprocess_eq_ok_iff.mp h
  have hsame : ∀ b : Graph, b.outline = g.outline →
      b.descendantPass b.tails = g.bounded.descendantPass g.bounded.tails →
      b.deriveDescendants.descendants? k = some set := by
    intro b ho hb
    obtain ⟨n, hn⟩ := exists_node (g := b) ((size_of_outline ho).symm ▸ hk)
    rw [descendants?, descendants_deriveDescendants, hn, hb, Option.map_some,
      Array.getD_eq_getD_getElem?, hpass, Option.getD_some]
  rw [if_pos hd]
  split
  · exact hsame _ (outline_deriveLevels _) (descendantPass_deriveLevels _ _)
  · exact hsame _ rfl rfl

/-- A task reaches what it has for a descendant by way of a child from which no cycle is reached. It
is no such task itself, or else it would be on a cycle with the child. -/
theorem ancestor_of_clear_child (hg : g.WellFormed) {c k t : TaskKey} (hc : c ∈ g.children t)
    (hclear : ¬ g.ReachesCycle c) (hk : k = c ∨ g.Ancestor c k) : g.Ancestor t k ∧ k ≠ t := by
  refine ⟨hg.ancestor_iff_child.mpr ⟨c, hc, hk⟩, ?_⟩
  rintro rfl
  have hstep : g.Ancestor k c := hg.ancestor_iff_child.mpr ⟨c, hc, Or.inl rfl⟩
  refine hclear ⟨c, ?_, Or.inl rfl⟩
  rcases hk with rfl | hck
  · exact hstep
  · exact hck.trans hstep

/-- Descendants after preprocessing, with levels derived too or not, on any graph that a sequence of
calls can build. The descendants of a task are its children from which no cycle is reached, and all
the tasks that one of these reaches. So a task reaches all its descendants and is none of them, and
where no task reaches itself, the descendants are all the tasks reached. -/
theorem descendants_are_reached (ds : List Declaration) (everything : Bool) :
    let g := ofDeclarations ds
    ∃ g', g.preprocess (if everything then .all else Policy.subsequentTasks.required) = .ok g' ∧
      ∀ t < g.size, ∃ set, g'.descendants? t = some set ∧
        (∀ k, k ∈ set ↔
          ∃ c ∈ g.children t, ¬ g.ReachesCycle c ∧ (k = c ∨ g.Ancestor c k)) ∧
        (∀ k ∈ set, g.Ancestor t k ∧ k ≠ t) ∧
        ((∀ j, ¬ g.Ancestor j j) → ∀ k, k ∈ set ↔ g.Ancestor t k) := by
  intro g
  have hg : g.WellFormed := ofDeclarations_wellFormed ds
  have hu : g.bounded.Underived := underived_ofDeclarations ds
  have hd : (if everything then .all else Policy.subsequentTasks.required).descendants = true := by
    cases everything <;> rfl
  obtain ⟨g', hg', -⟩ := preprocess_ok (preprocessed_ofDeclarations ds)
    (if everything then .all else Policy.subsequentTasks.required)
  refine ⟨g', hg', fun t ht => ?_⟩
  obtain ⟨set, hpass, hmem⟩ := exists_set (g := g.bounded) (hg.of_outline rfl) hu ht
  replace hmem : ∀ k, k ∈ set ↔
      ∃ c ∈ g.children t, ¬ g.ReachesCycle c ∧ (k = c ∨ g.Ancestor c k) := hmem
  refine ⟨set, descendants?_of_preprocess hd hg' ht hpass, hmem, fun k hk => ?_, fun ha k => ?_⟩
  · obtain ⟨c, hc, hclear, hck⟩ := (hmem k).mp hk
    exact ancestor_of_clear_child hg hc hclear hck
  · rw [hmem, hg.ancestor_iff_clear_child ha]

end Makespan.Graph
