import Mathlib
import Makespan.Workflow.CycleSearch

/-! Where the search for a cycle finds nothing, there is none: the finishing order has every node,
and every node behind its predecessors, so that the place in it grows along each edge. -/

namespace Makespan.Digraph

/-- Edges lead from node to other node. -/
structure Proper (g : Digraph) : Prop where
  source_mem : ∀ e ∈ g.edges, e.1 ∈ g.nodes
  target_mem : ∀ e ∈ g.edges, e.2 ∈ g.nodes
  no_loop : ∀ e ∈ g.edges, e.1 ≠ e.2

theorem mem_successors {g : Digraph} {x y : String} : y ∈ g.successors x ↔ (x, y) ∈ g.edges := by
  simp only [successors, List.mem_filterMap, Option.ite_none_right_eq_some, Option.some.injEq]
  constructor
  · rintro ⟨e, he, rfl, rfl⟩; exact he
  · exact fun h => ⟨(x, y), h, rfl, rfl⟩

theorem mem_predecessors {g : Digraph} {x y : String} :
    x ∈ g.predecessors y ↔ (x, y) ∈ g.edges := by
  simp only [predecessors, List.mem_filterMap, Option.ite_none_right_eq_some, Option.some.injEq]
  constructor
  · rintro ⟨e, he, rfl, rfl⟩; exact he
  · exact fun h => ⟨(x, y), h, rfl, rfl⟩

theorem mem_edges_ofPairs {nodes : List String} {pairs : List (String × String)}
    {e : String × String} : e ∈ (ofPairs nodes pairs).edges ↔ e ∈ pairs := by
  suffices h : ∀ edges : List (String × String),
      e ∈ pairs.foldl (fun edges e => if e ∈ edges then edges else edges ++ [e]) edges ↔
        e ∈ edges ∨ e ∈ pairs by
    simpa [ofPairs] using h []
  induction pairs with
  | nil => simp
  | cons d pairs ih =>
    intro edges
    rw [List.foldl_cons, ih]
    by_cases hd : d ∈ edges
    · rw [if_pos hd, List.mem_cons]
      constructor
      · rintro (h | h)
        · exact Or.inl h
        · exact Or.inr (Or.inr h)
      · rintro (h | rfl | h)
        · exact Or.inl h
        · exact Or.inl hd
        · exact Or.inr h
    · rw [if_neg hd, List.mem_append, List.mem_singleton, List.mem_cons, or_assoc]

/-! ## The search finds every node -/

/-- The steps that a search can still take: what is on the stack, and a node and the edges out of
it for each node to be discovered. -/
def work (g : Digraph) (stack : List String) (s : Search) : Nat :=
  stack.length + g.nodes.countP (· ∉ s.discovered) + g.edges.countP (·.1 ∉ s.discovered)

theorem length_successors (g : Digraph) (x : String) :
    (g.successors x).length = g.edges.countP (·.1 = x) := by
  rw [successors, List.length_filterMap_eq_countP]
  congr 1
  funext e
  by_cases h : e.1 = x <;> simp [h]

theorem countP_discover {α : Type} (f : α → String) {x : String} {discovered : List String}
    (hx : x ∉ discovered) (l : List α) :
    l.countP (f · ∉ x :: discovered) + l.countP (f · = x) = l.countP (f · ∉ discovered) := by
  induction l with
  | nil => rfl
  | cons a l ih =>
    simp only [List.countP_cons, ← ih]
    by_cases ha : f a = x
    · subst ha; simp [hx]; omega
    · simp [ha]; omega

/-- Discovering a node takes it off the nodes, and puts no more on the stack than it takes off the
edges. -/
theorem work_discover {g : Digraph} {x : String} (hx : x ∈ g.nodes) {s : Search}
    (hs : x ∉ s.discovered) {next : List String} (hnext : next.length ≤ (g.successors x).length)
    (stack : List String) :
    g.work (next ++ stack) { s with discovered := x :: s.discovered } < g.work stack s := by
  have hnodes := countP_discover id hs g.nodes
  have hedges := countP_discover Prod.fst hs g.edges
  have hpos : 0 < g.nodes.countP (id · = x) := List.countP_pos_iff.mpr ⟨x, hx, by simp⟩
  rw [length_successors] at hnext
  simp only [id] at hnodes hpos
  simp only [work, List.length_append]
  omega

/-- Taking off a stack what is listed already loses nothing. -/
theorem mem_or_mem_of_pop {x y : String} {l stack : List String} (hx : x ∈ l)
    (h : y ∈ l ∨ y ∈ x :: stack) : y ∈ l ∨ y ∈ stack := by
  rcases h with h | h
  · exact Or.inl h
  · rcases List.mem_cons.mp h with rfl | h
    · exact Or.inl hx
    · exact Or.inr h

/-- A search with enough steps left works off its stack: every node that was discovered or stands
on the stack is finished, and so is every node that is discovered on the way. -/
theorem visit_complete {g : Digraph} (hg : g.Proper) {n : Nat} {stack : List String} {s : Search}
    (hn : g.work stack s ≤ n) (hstack : ∀ x ∈ stack, x ∈ g.nodes)
    (hs : ∀ x ∈ s.discovered, x ∈ s.finished ∨ x ∈ stack) :
    (∀ x, x ∈ s.discovered ∨ x ∈ stack → x ∈ (g.visit n stack s).discovered) ∧
      ∀ x ∈ (g.visit n stack s).discovered, x ∈ (g.visit n stack s).finished := by
  fun_induction g.visit n stack s with
  | case1 stack s =>
    have hnil : stack = [] := List.eq_nil_of_length_eq_zero (by simp only [work] at hn; omega)
    subst hnil
    exact ⟨fun x hx => by simpa using hx, fun x hx => by simpa using hs x hx⟩
  | case2 n s => exact ⟨fun x hx => by simpa using hx, fun x hx => by simpa using hs x hx⟩
  | case3 n x stack s hx discovered next ih =>
    have hlen : next.reverse.length ≤ (g.successors x).length := by
      rw [List.length_reverse]; exact List.length_filter_le _ _
    have hwork := work_discover (hstack x (by simp)) hx hlen (x :: stack)
    obtain ⟨hd, hf⟩ := ih (Nat.le_of_lt_succ (hwork.trans_le hn))
      (fun y hy => by
        rcases List.mem_append.mp hy with hy | hy
        · have hy := (List.mem_filter.mp (List.mem_reverse.mp hy)).1
          exact hg.target_mem _ (mem_successors.mp hy)
        · exact hstack y hy)
      (fun y hy => by
        rcases List.mem_cons.mp hy with rfl | hy
        · exact Or.inr (by simp)
        · exact (hs y hy).imp_right fun hy => List.mem_append_right _ hy)
    refine ⟨fun y hy => hd y ?_, hf⟩
    rcases hy with hy | hy
    · exact Or.inl (List.mem_cons_of_mem x hy)
    · exact Or.inr (List.mem_append_right _ hy)
  | case4 n x stack s hx hfin ih =>
    have hx : x ∈ s.discovered := by simpa using hx
    obtain ⟨hd, hf⟩ := ih (by simp only [work, List.length_cons] at hn ⊢; omega)
      (fun y hy => hstack y (List.mem_cons_of_mem x hy))
      (fun y hy => mem_or_mem_of_pop hfin (hs y hy))
    exact ⟨fun y hy => hd y (mem_or_mem_of_pop hx hy), hf⟩
  | case5 n x stack s hx hfin ih =>
    have hx : x ∈ s.discovered := by simpa using hx
    obtain ⟨hd, hf⟩ := ih (by simp only [work, List.length_cons] at hn ⊢; omega)
      (fun y hy => hstack y (List.mem_cons_of_mem x hy))
      (fun y hy => mem_or_mem_of_pop (List.mem_cons_self ..)
        ((hs y hy).imp_left (List.mem_cons_of_mem x)))
    exact ⟨fun y hy => hd y (mem_or_mem_of_pop hx hy), hf⟩

theorem work_start_le (g : Digraph) (x : String) (s : Search) : g.work [x] s ≤ g.visitBound := by
  have hnodes : g.nodes.countP (· ∉ s.discovered) ≤ g.nodes.length := List.countP_le_length
  have hedges : g.edges.countP (·.1 ∉ s.discovered) ≤ g.edges.length := List.countP_le_length
  simp only [work, visitBound, List.length_singleton]
  omega

/-- Every node gets its place. -/
theorem mem_finishingOrder {g : Digraph} (hg : g.Proper) {x : String} (hx : x ∈ g.nodes) :
    x ∈ g.finishingOrder := by
  suffices h : ∀ (nodes : List String) (s : Search), (∀ y ∈ nodes, y ∈ g.nodes) →
      (∀ y ∈ s.discovered, y ∈ s.finished) → ∀ y, y ∈ s.discovered ∨ y ∈ nodes →
        y ∈ (nodes.foldl (fun s x =>
          if x ∈ s.discovered then s else g.visit g.visitBound [x] s) s).finished from
    h g.nodes {} (fun _ hy => hy) (fun _ hy => by simp at hy) x (Or.inr hx)
  intro nodes
  induction nodes with
  | nil => exact fun s _ hs y hy => hs y (by simpa using hy)
  | cons z nodes ih =>
    intro s hn hs y hy
    rw [List.foldl_cons]
    by_cases hz : z ∈ s.discovered
    · rw [if_pos hz]
      exact ih s (fun y hy => hn y (List.mem_cons_of_mem z hy)) hs y (mem_or_mem_of_pop hz hy)
    · rw [if_neg hz]
      obtain ⟨hd, hf⟩ := visit_complete hg (work_start_le g z s)
        (fun y hy => by simpa [List.mem_singleton.mp hy] using hn z (by simp))
        (fun y hy => Or.inl (hs y hy))
      have hz : z ∈ (g.visit g.visitBound [z] s).discovered := hd z (Or.inr (by simp))
      exact ih _ (fun y hy => hn y (List.mem_cons_of_mem z hy)) hf y
        (mem_or_mem_of_pop hz (hy.imp_left fun hy => hd y (Or.inl hy)))

/-! ## The order that it finds -/

theorem unpassed?_cons_eq_none {g : Digraph} {passed order : List String} {x : String}
    (h : g.unpassed? passed (x :: order) = none) :
    (∀ p ∈ g.predecessors x, p ∈ x :: passed) ∧ g.unpassed? (x :: passed) order = none := by
  unfold unpassed? at h
  cases hl : ((g.predecessors x).filter (· ∉ x :: passed)).getLast? with
  | some p => simp only [hl] at h; cases h
  | none =>
    simp only [hl] at h
    refine ⟨fun p hp => ?_, h⟩
    by_contra hx
    exact List.filter_eq_nil_iff.mp (List.getLast?_eq_none_iff.mp hl) p hp (by simpa using hx)

/-- Where all are passed, predecessors come first. -/
theorem idxOf_lt_of_unpassed? {g : Digraph} {order passed : List String}
    (h : g.unpassed? passed order = none) {x p : String} (hx : x ∈ order)
    (hp : p ∈ g.predecessors x) : p ∈ passed ∨ p = x ∨ order.idxOf p < order.idxOf x := by
  induction order generalizing passed with
  | nil => simp at hx
  | cons y order ih =>
    obtain ⟨hall, hrest⟩ := unpassed?_cons_eq_none h
    by_cases hxy : y = x
    · subst hxy
      rcases List.mem_cons.mp (hall p hp) with rfl | hp
      · exact Or.inr (Or.inl rfl)
      · exact Or.inl hp
    · rw [List.idxOf_cons_ne _ hxy]
      by_cases hpy : y = p
      · subst hpy
        exact Or.inr (Or.inr (by simp))
      · rw [List.idxOf_cons_ne _ hpy]
        rcases ih hrest ((List.mem_cons.mp hx).resolve_left (Ne.symm hxy)) with hp | hp | hp
        · exact Or.inl ((List.mem_cons.mp hp).resolve_left (Ne.symm hpy))
        · exact Or.inr (Or.inl hp)
        · exact Or.inr (Or.inr (by omega))

/-- Without a cycle nodes can be numbered so that numbers grow along each edge. -/
theorem exists_numbering {g : Digraph} (hg : g.Proper) (h : g.onCycle? = none) :
    ∃ number : String → Nat, ∀ e ∈ g.edges, number e.1 < number e.2 := by
  refine ⟨g.finishingOrder.idxOf, fun e he => ?_⟩
  have hx := mem_finishingOrder hg (hg.target_mem e he)
  rcases idxOf_lt_of_unpassed? h hx (mem_predecessors.mpr he) with hp | hp | hp
  · simp at hp
  · exact absurd hp (hg.no_loop e he)
  · exact hp

end Makespan.Digraph
