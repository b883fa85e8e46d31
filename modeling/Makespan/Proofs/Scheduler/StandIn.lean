import Makespan.Proofs.Graph.Attributes
import Makespan.Proofs.Scheduler.History

/-! A scheduler on another graph. Apart from its graph it stays in the same state, whatever it is
asked to do, as long as the other graph has the same tasks in the same ranks and lets go of the same
children. -/

namespace Makespan

/-- Every task keeps its name. -/
def sameName (name : String) : String := name

/-- An error with other names for the tasks. -/
def Error.rename (f : String → String) : Error → Error
  | unknownTask id => unknownTask (f id)
  | alreadyExecuted id => alreadyExecuted (f id)
  | e => e

theorem Error.rename_sameName (e : Error) : e.rename sameName = e := by cases e <;> rfl

/-- A graph that can stand in for another one where a policy sorts: it has the same tasks in the
same ranks, perhaps under other names, but may differ in its edges. -/
structure Graph.StandIn (policy : Policy) (f : String → String) (g g' : Graph) : Prop where
  size : g'.size = g.size
  name : ∀ k < g.size, g'.id k = f (g.id k)
  length : ∀ k : TaskKey,
    (g'.nodes[k]?).elim 0 (·.task.length) = (g.nodes[k]?).elim 0 (·.task.length)
  rank : ∀ k, policy.rankOf g' k = policy.rankOf g k

namespace Graph.StandIn

variable {policy : Policy} {f : String → String} {g g' : Graph}

theorem order (h : StandIn policy f g g') (keys : List TaskKey) :
    policy.order g' keys = policy.order g keys := by
  simp only [Policy.order, h.rank]

theorem id_eq (h : StandIn policy sameName g g') : g'.id = g.id := by
  funext k
  by_cases hk : k < g.size
  · exact h.name k hk
  · have hk' : ¬ k < g'.size := h.size.symm ▸ hk
    rw [Graph.id, Graph.id, Array.getElem?_eq_none (not_lt.mp hk),
      Array.getElem?_eq_none (not_lt.mp hk')]

theorem of_tasks (ht : g'.nodes.toList.map (·.task) = g.nodes.toList.map (·.task))
    (hr : ∀ k, policy.rankOf g' k = policy.rankOf g k) : StandIn policy sameName g g' := by
  have htask : ∀ k : TaskKey, g'.nodes[k]?.map (·.task) = g.nodes[k]?.map (·.task) := fun k => by
    simpa using congrArg (·[k]?) ht
  refine ⟨by simpa [Graph.size] using congrArg List.length ht, fun k _ => ?_, fun k => ?_, hr⟩
  · have hk := congrArg (Option.map Task.id) (htask k)
    rw [Option.map_map, Option.map_map] at hk
    exact congrArg (·.getD "") hk
  · have hk := congrArg (fun t? : Option Task => t?.elim 0 (·.length)) (htask k)
    simpa only [Option.elim_map, Function.comp_def] using hk

theorem of_outline (ho : g'.outline = g.outline)
    (hr : ∀ k, policy.rankOf g' k = policy.rankOf g k) : StandIn policy sameName g g' :=
  of_tasks (tasks_of_outline ho) hr

end Graph.StandIn

namespace Scheduler

/-- The same scheduler on another graph. -/
def on (s : Scheduler) (g : Graph) : Scheduler := { s with graph := g }

variable {s t : Scheduler} {f : String → String} {g : Graph}

/-- What a scheduler starts with, its graph apart: the roots and the ready flags. -/
theorem seeded_on {g' : Graph} {policy : Policy} (hs : seeded g policy = .ok s)
    (hp : g'.preprocessed = true) (hroots : g'.roots = g.roots)
    (hready : g'.nodes.map (·.ready) = g.nodes.map (·.ready)) :
    seeded g' policy = .ok (s.on g') ∧ s.graph = g ∧ s.policy = policy := by
  have hsize : g'.nodes.size = g.nodes.size := by simpa using congrArg Array.size hready
  have hexecuted : g'.nodes.map (fun _ => false) = g.nodes.map fun _ => false := by
    rw [Array.map_const', Array.map_const', hsize]
  unfold seeded at hs ⊢
  split at hs
  · obtain rfl := Except.ok.inj hs
    rw [if_pos hp, hroots, hready, hexecuted]
    exact ⟨rfl, rfl, rfl⟩
  · cases hs

/-! ## What no call changes -/

structure SameBasis (s t : Scheduler) : Prop where
  graph : t.graph = s.graph
  policy : t.policy = s.policy

theorem SameBasis.refl (s : Scheduler) : SameBasis s s := ⟨rfl, rfl⟩

theorem SameBasis.trans {u : Scheduler} (h : SameBasis s t) (h' : SameBasis t u) : SameBasis s u :=
  ⟨h'.graph.trans h.graph, h'.policy.trans h.policy⟩

theorem SameBasis.standIn (h : SameBasis s t) (hg : s.graph.StandIn s.policy f g) :
    t.graph.StandIn t.policy f g := by rwa [h.graph, h.policy]

theorem SameBasis.notify (s : Scheduler) (k : TaskKey) : SameBasis s (s.notify k).1 := by
  cases hx : s.isExecuted k with
  | true => rw [notify_of_executed hx]; exact .refl s
  | false => rw [notify_of_unexecuted hx]; exact ⟨rfl, rfl⟩

theorem SameBasis.of_take? {taken : TaskKey × Scheduler} (h : s.take? = some taken) :
    SameBasis s taken.2 := by
  unfold take? at h
  cases hq : s.queue with
  | nil => rw [hq] at h; cases h
  | cons j rest =>
    rw [hq] at h
    obtain rfl := Option.some.inj h
    exact ⟨rfl, rfl⟩

theorem queue_of_take? {taken : TaskKey × Scheduler} (h : s.take? = some taken) :
    s.queue = taken.1 :: taken.2.queue := by
  unfold take? at h
  cases hq : s.queue with
  | nil => rw [hq] at h; cases h
  | cons j rest =>
    rw [hq] at h
    obtain rfl := Option.some.inj h
    rfl

theorem SameBasis.call {n : Nat} (s : Scheduler) (c : Call n) : SameBasis s (s.call c).1 := by
  cases c with
  | cycle => exact ⟨rfl, rfl⟩
  | take =>
    simp only [Scheduler.call]
    cases h : s.take? with
    | none => exact .refl s
    | some taken => exact .of_take? h
  | notify k =>
    simp only [Scheduler.call]
    have h := SameBasis.notify s k
    rcases hn : s.notify k with ⟨t, e | released⟩ <;> rw [hn] at h <;> exact h

/-! ## What each call does on the other graph -/

theorem cycle_on (h : s.graph.StandIn s.policy f g) : (s.on g).cycle = s.cycle.on g := by
  simp only [cycle, on, h.order]

theorem take?_on (s : Scheduler) (g : Graph) :
    (s.on g).take? = s.take?.map fun taken => (taken.1, taken.2.on g) := by
  have hq : (s.on g).queue = s.queue := rfl
  unfold take?
  rw [hq]
  cases s.queue <;> rfl

/-- The other graph lets go of the same children when a task finishes. -/
def ReleasesAlike (s : Scheduler) (g : Graph) (k : TaskKey) : Prop :=
  ((s.markExecuted k).on g).releasable k = (s.markExecuted k).releasable k

theorem notify_under {k : TaskKey} (hname : g.id k = f (s.graph.id k)) (hr : s.ReleasesAlike g k) :
    (s.on g).notify k = ((s.notify k).1.on g, (s.notify k).2.mapError (·.rename f)) := by
  cases hx : s.isExecuted k with
  | true =>
    have hx' : (s.on g).isExecuted k = true := hx
    rw [notify_of_executed hx, notify_of_executed hx']
    show (s.on g, Except.error (Error.alreadyExecuted (g.id k))) = _
    rw [hname]
    rfl
  | false =>
    have hx' : (s.on g).isExecuted k = false := hx
    have hr' : ((s.on g).markExecuted k).releasable k = (s.markExecuted k).releasable k := hr
    rw [notify_of_unexecuted hx, notify_of_unexecuted hx', finish, hr']
    rfl

theorem notify_on (hid : g.id = s.graph.id) {k : TaskKey} (hr : s.ReleasesAlike g k) :
    (s.on g).notify k = ((s.notify k).1.on g, (s.notify k).2) := by
  rw [notify_under (f := sameName) (congrFun hid k) hr]
  cases (s.notify k).2 with
  | error e => rw [Except.mapError, e.rename_sameName]
  | ok released => rfl

/-- Graphs with the same edges have the same children to let go of. -/
theorem releasesAlike_of_edges (hp : g.parents = s.graph.parents)
    (hc : g.children = s.graph.children) (k : TaskKey) : s.ReleasesAlike g k := by
  unfold ReleasesAlike releasable
  show (g.children k).filter (fun c => _ && (g.parents c).all _) = _
  rw [hp, hc]
  rfl

theorem releasesAlike_of_outline (ho : g.outline = s.graph.outline) (k : TaskKey) :
    s.ReleasesAlike g k :=
  releasesAlike_of_edges (funext (Graph.parents_of_outline ho))
    (funext (Graph.children_of_outline ho)) k

theorem call_on {n : Nat} (h : s.graph.StandIn s.policy sameName g)
    (hr : ∀ k, s.ReleasesAlike g k) (c : Call n) :
    (s.on g).call c = ((s.call c).1.on g, (s.call c).2) := by
  cases c with
  | cycle => exact congrArg (·, Entry.cycled) (cycle_on h)
  | take =>
    simp only [call, take?_on]
    cases s.take? <;> rfl
  | notify k =>
    simp only [call, notify_on h.id_eq (hr k)]
    rcases s.notify k with ⟨t, e | released⟩ <;> rfl

theorem after_snoc {n : Nat} (s : Scheduler) (calls : List (Call n)) (c : Call n) :
    s.after (calls ++ [c]) =
      (((s.after calls).1.call c).1, (s.after calls).2 ++ [((s.after calls).1.call c).2]) := by
  simp [after, List.foldl_append]

/-- Schedulers on graphs of one outline that rank alike stay in the same state and give the same
results. -/
theorem after_on {n : Nat} (h : s.graph.StandIn s.policy sameName g)
    (ho : g.outline = s.graph.outline) (calls : List (Call n)) :
    (s.on g).after calls = ((s.after calls).1.on g, (s.after calls).2) := by
  induction calls using List.reverseRecOn with
  | nil => rfl
  | append_singleton calls c ih =>
    have hs : SameBasis s (s.after calls).1 :=
      after_induct (I := fun t _ => SameBasis s t) (fun t _ c ht => ht.trans (.call t c)) (.refl s)
        calls
    have hr : ∀ k, (s.after calls).1.ReleasesAlike g k :=
      releasesAlike_of_outline (ho.trans (congrArg _ hs.graph.symm))
    rw [after_snoc, after_snoc, ih, call_on (hs.standIn h) hr]

end Scheduler

end Makespan
