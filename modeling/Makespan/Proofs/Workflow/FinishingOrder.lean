import Makespan.Proofs.Workflow.CycleSearch

/-! The order in which a depth-first search finishes nodes. A successor that is finished after a
node was on the stack when the node was finished, and then leads to it. So an edge out of a node
that the backward pass has not passed yet is part of a cycle, and the node that the pass names lies
on it. -/

namespace Makespan.Digraph

def Leads (g : Digraph) (x y : String) : Prop := (x, y) ∈ g.edges

def Reaches (g : Digraph) : String → String → Prop := Relation.ReflTransGen g.Leads

/-- On a cycle stand the nodes that lead back to themselves by at least one edge. -/
def OnCycle (g : Digraph) (x : String) : Prop := Relation.TransGen g.Leads x x

/-- Finished nodes, the last one first: each successor of a node was finished before it, or leads
to it. -/
inductive FinishOrder (g : Digraph) : List String → Prop
  | nil : FinishOrder g []
  | cons {x : String} {l : List String} (new : x ∉ l)
      (successors : ∀ y, g.Leads x y → y ∈ l ∨ g.Reaches y x) (rest : FinishOrder g l) :
      FinishOrder g (x :: l)

theorem FinishOrder.of_append {g : Digraph} {before after : List String}
    (h : g.FinishOrder (before ++ after)) : g.FinishOrder after := by
  induction before with
  | nil => exact h
  | cons x before ih =>
    cases h with
    | cons _ _ rest => exact ih rest

/-! ## The stack of a search -/

/-- What stands on the stack above the topmost copy of a node. Copies further down are stale. -/
def above (stack : List String) (x : String) : List String := stack.takeWhile (· ≠ x)

theorem above_cons_of_ne {x y : String} (h : y ≠ x) (stack : List String) :
    above (y :: stack) x = y :: above stack x := by simp [above, h]

theorem above_append {x : String} {l : List String} (h : x ∉ l) (stack : List String) :
    above (l ++ stack) x = l ++ above stack x := by
  refine List.takeWhile_append_of_pos fun y hy => ?_
  have hne : y ≠ x := fun he => h (he ▸ hy)
  simpa using hne

theorem above_cons_self (x : String) (stack : List String) : above (x :: stack) x = [] := by
  simp [above]

/-- A node that the search has met and not left. -/
def Search.Open (s : Search) (x : String) : Prop := x ∈ s.discovered ∧ x ∉ s.finished

/-- An open node waits on the stack for what it reaches, and for every successor that is still to be
discovered. -/
structure Waits (g : Digraph) (stack : List String) (s : Search) : Prop where
  on_stack : ∀ x, s.Open x → x ∈ stack
  reaches : ∀ x, s.Open x → ∀ y ∈ above stack x, g.Reaches x y
  successors : ∀ x, s.Open x → ∀ y, g.Leads x y → y ∈ s.discovered ∨ y ∈ above stack x

namespace Waits

variable {g : Digraph} {stack : List String} {s : Search} {x : String}

/-- A search may start anywhere when no node is open. -/
theorem of_none_open (h : ∀ x ∈ s.discovered, x ∈ s.finished) : g.Waits stack s where
  on_stack x hx := absurd (h x hx.1) hx.2
  reaches x hx := absurd (h x hx.1) hx.2
  successors x hx := absurd (h x hx.1) hx.2

theorem discover (h : g.Waits (x :: stack) s) (hx : x ∉ s.discovered) {next : List String}
    (hnext : ∀ y, y ∈ next ↔ g.Leads x y ∧ y ∉ x :: s.discovered) :
    g.Waits (next ++ x :: stack) { s with discovered := x :: s.discovered } := by
  have hnew : x ∉ next := fun hm => ((hnext x).mp hm).2 (by simp)
  have hself : above (next ++ x :: stack) x = next := by
    rw [above_append hnew, above_cons_self, List.append_nil]
  -- the nodes that were open before have `x` above them
  have hold : ∀ z, z ≠ x → Search.Open { s with discovered := x :: s.discovered } z →
      s.Open z ∧ above (next ++ x :: stack) z = next ++ x :: above stack z := by
    intro z hz ho
    have hd : z ∈ s.discovered := (List.mem_cons.mp ho.1).resolve_left hz
    have hn : z ∉ next := fun hm => ((hnext z).mp hm).2 (List.mem_cons_of_mem x hd)
    exact ⟨⟨hd, ho.2⟩, by rw [above_append hn, above_cons_of_ne (Ne.symm hz)]⟩
  refine ⟨fun z ho => ?_, fun z ho y hy => ?_, fun z ho y hy => ?_⟩
  · by_cases hz : z = x
    · subst hz; simp
    · exact List.mem_append_right _ (h.on_stack z (hold z hz ho).1)
  · by_cases hz : z = x
    · subst hz
      rw [hself] at hy
      exact .single ((hnext y).mp hy).1
    · obtain ⟨ho, ha⟩ := hold z hz ho
      have hreach : ∀ v ∈ x :: above stack z, g.Reaches z v := by
        have hr := h.reaches z ho
        rwa [above_cons_of_ne (Ne.symm hz)] at hr
      rw [ha] at hy
      rcases List.mem_append.mp hy with hy | hy
      · exact (hreach x (by simp)).tail ((hnext y).mp hy).1
      · exact hreach y hy
  · by_cases hz : z = x
    · subst hz
      rw [hself, hnext]
      by_cases hd : y ∈ z :: s.discovered
      · exact Or.inl hd
      · exact Or.inr ⟨hy, hd⟩
    · obtain ⟨ho, ha⟩ := hold z hz ho
      rw [ha]
      rcases h.successors z ho y hy with hd | hm
      · exact Or.inl (List.mem_cons_of_mem x hd)
      · rw [above_cons_of_ne (Ne.symm hz)] at hm
        exact Or.inr (List.mem_append_right _ hm)

/-- A node that is finished, or that is being finished, is taken off the stack. -/
theorem pop (h : g.Waits (x :: stack) s) (hx : x ∈ s.discovered) {finished : List String}
    (hf : ∀ y, y ∈ finished ↔ y = x ∨ y ∈ s.finished) : g.Waits stack { s with finished } := by
  have hold : ∀ z, Search.Open { s with finished } z →
      s.Open z ∧ z ≠ x ∧ above (x :: stack) z = x :: above stack z := by
    intro z ho
    obtain ⟨hz, hn⟩ := not_or.mp fun hm => ho.2 ((hf z).mpr hm)
    exact ⟨⟨ho.1, hn⟩, hz, above_cons_of_ne (Ne.symm hz) stack⟩
  refine ⟨fun z ho => ?_, fun z ho y hy => ?_, fun z ho y hy => ?_⟩
  · obtain ⟨ho, hz, -⟩ := hold z ho
    exact (List.mem_cons.mp (h.on_stack z ho)).resolve_left hz
  · obtain ⟨ho, -, ha⟩ := hold z ho
    exact h.reaches z ho y (ha ▸ List.mem_cons_of_mem x hy)
  · obtain ⟨ho, -, ha⟩ := hold z ho
    rcases h.successors z ho y hy with hd | hm
    · exact Or.inl hd
    · rw [ha] at hm
      rcases List.mem_cons.mp hm with rfl | hm
      · exact Or.inl hx
      · exact Or.inr hm

/-- The topmost node has no successor left to be discovered; those that are open lead to it. -/
theorem finishOrder (h : g.Waits (x :: stack) s) (hx : s.Open x)
    (hs : g.FinishOrder s.finished) : g.FinishOrder (x :: s.finished) := by
  refine .cons hx.2 (fun y hy => ?_) hs
  have hd : y ∈ s.discovered := by
    have hm := h.successors x hx y hy
    rw [above_cons_self] at hm
    exact hm.resolve_right List.not_mem_nil
  by_cases hf : y ∈ s.finished
  · exact Or.inl hf
  · right
    by_cases he : y = x
    · subst he; exact .refl
    · refine h.reaches y ⟨hd, hf⟩ x ?_
      rw [above_cons_of_ne (Ne.symm he)]
      simp

end Waits

/-! ## The finishing order -/

theorem visit_finishOrder {g : Digraph} {n : Nat} {stack : List String} {s : Search}
    (h : g.Waits stack s) (hs : g.FinishOrder s.finished) :
    g.FinishOrder (g.visit n stack s).finished := by
  fun_induction g.visit n stack s with
  | case1 stack s => exact hs
  | case2 n s => exact hs
  | case3 n x stack s hx discovered next ih =>
    refine ih (h.discover hx fun y => ?_) hs
    rw [List.mem_reverse, List.mem_filter, mem_successors, decide_eq_true_eq]
    rfl
  | case4 n x stack s hx hfin ih =>
    have hx : x ∈ s.discovered := by simpa using hx
    refine ih (h.pop hx fun y => ?_) hs
    exact ⟨Or.inr, fun hy => hy.elim (fun he => he ▸ hfin) id⟩
  | case5 n x stack s hx hfin ih =>
    have hx : x ∈ s.discovered := by simpa using hx
    exact ih (h.pop hx fun y => List.mem_cons) (h.finishOrder ⟨hx, hfin⟩ hs)

theorem finishingOrder_finishOrder {g : Digraph} (hg : g.Proper) :
    g.FinishOrder g.finishingOrder := by
  suffices h : ∀ (nodes : List String) (s : Search), (∀ y ∈ nodes, y ∈ g.nodes) →
      (∀ y ∈ s.discovered, y ∈ s.finished) → g.FinishOrder s.finished →
        g.FinishOrder (nodes.foldl (fun s x =>
          if x ∈ s.discovered then s else g.visit g.visitBound [x] s) s).finished from
    h g.nodes {} (fun _ hy => hy) (fun _ hy => by simp at hy) .nil
  intro nodes
  induction nodes with
  | nil => exact fun s _ _ hs => hs
  | cons z nodes ih =>
    intro s hn hd hs
    have hrest : ∀ y ∈ nodes, y ∈ g.nodes := fun y hy => hn y (List.mem_cons_of_mem z hy)
    rw [List.foldl_cons]
    by_cases hz : z ∈ s.discovered
    · rw [if_pos hz]
      exact ih s hrest hd hs
    · rw [if_neg hz]
      have hdone := (visit_complete hg (work_start_le g z s)
        (fun y hy => by simpa [List.mem_singleton.mp hy] using hn z (by simp))
        (fun y hy => Or.inl (hd y hy))).2
      exact ih _ hrest hdone (visit_finishOrder (.of_none_open hd) hs)

/-! ## The node that is named -/

/-- The node that the backward pass names leads to a node that comes before it. -/
theorem unpassed?_eq_some {g : Digraph} {passed order : List String} {p : String}
    (h : g.unpassed? passed order = some p) : ∃ before x after, order = before ++ x :: after ∧
      g.Leads p x ∧ p ∉ passed ∧ p ∉ before ∧ p ≠ x := by
  induction order generalizing passed with
  | nil => cases h
  | cons y order ih =>
    unfold unpassed? at h
    cases hl : ((g.predecessors y).filter (· ∉ y :: passed)).getLast? with
    | some q =>
      simp only [hl] at h
      obtain rfl := Option.some.inj h
      obtain ⟨hq, hnew⟩ := List.mem_filter.mp (List.mem_of_getLast? hl)
      have hnew : q ≠ y ∧ q ∉ passed := by simpa using hnew
      exact ⟨[], y, order, rfl, mem_predecessors.mp hq, hnew.2, by simp, hnew.1⟩
    | none =>
      simp only [hl] at h
      obtain ⟨before, x, after, rfl, hlead, hp, hb, hx⟩ := ih h
      obtain ⟨hy, hp⟩ := not_or.mp (mt List.mem_cons.mpr hp)
      refine ⟨y :: before, x, after, rfl, hlead, hp, fun hm => ?_, hx⟩
      exact (List.mem_cons.mp hm).elim hy hb

theorem onCycle_of_onCycle? {g : Digraph} (hg : g.Proper) {p : String}
    (h : g.onCycle? = some p) : g.OnCycle p := by
  obtain ⟨before, x, after, ho, hlead, -, hb, hx⟩ := unpassed?_eq_some h
  have horder := finishingOrder_finishOrder hg
  have hp : p ∈ after := by
    have hm := mem_finishingOrder hg (hg.source_mem _ hlead)
    rw [ho, List.mem_append] at hm
    exact (List.mem_cons.mp (hm.resolve_left hb)).resolve_left hx
  rw [ho] at horder
  cases horder.of_append with
  | cons new _ rest =>
    -- `p` was finished before `x`, to which it leads
    obtain ⟨l, early, rfl⟩ := List.append_of_mem hp
    cases rest.of_append with
    | cons _ successors _ =>
      rcases successors x hlead with hm | hreach
      · exact absurd (List.mem_append_right l (List.mem_cons_of_mem p hm)) new
      · exact .head' hlead hreach

theorem not_onCycle_of_onCycle? {g : Digraph} (hg : g.Proper) (h : g.onCycle? = none)
    (x : String) : ¬ g.OnCycle x := by
  obtain ⟨number, hn⟩ := exists_numbering hg h
  have hgrows : ∀ {y z}, Relation.TransGen g.Leads y z → number y < number z := by
    intro y z hyz
    induction hyz with
    | single he => exact hn _ he
    | tail _ he ih => exact ih.trans (hn _ he)
  exact fun hx => (hgrows hx).false

/-- The search finds a cycle just when there is one. -/
theorem onCycle?_eq_none_iff {g : Digraph} (hg : g.Proper) :
    g.onCycle? = none ↔ ∀ x, ¬ g.OnCycle x := by
  constructor
  · exact not_onCycle_of_onCycle? hg
  · intro h
    refine Option.eq_none_iff_forall_ne_some.mpr fun p hp => ?_
    exact h p (onCycle_of_onCycle? hg hp)

end Makespan.Digraph
