import Mathlib
import Makespan.Graph.Preprocess

/-! Well-formed graphs. Every graph put together from tasks and dependencies has distinct ids, and
lists each edge once with its parent and once with its child. Preprocessing adds attributes to the
nodes and keeps all of this. -/

namespace Makespan

/-- A sequence succeeds when its first part does and the rest does on the first part's value. -/
theorem bind_eq_ok_iff {ε α β : Type} {x : Except ε α} {f : α → Except ε β} {b : β} :
    x >>= f = .ok b ↔ ∃ a, x = .ok a ∧ f a = .ok b := by
  cases x <;> simp [bind, Except.bind]

theorem bind_eq_error_iff {ε α β : Type} {x : Except ε α} {f : α → Except ε β} {e : ε} :
    x >>= f = .error e ↔ x = .error e ∨ ∃ a, x = .ok a ∧ f a = .error e := by
  cases x <;> simp [bind, Except.bind]

theorem pure_eq_ok_iff {ε α : Type} {a b : α} : (pure a : Except ε α) = .ok b ↔ a = b := by
  simp [pure, Except.pure]

/-- What comes after a check is reached when the check passes. -/
theorem unless_throw_eq_ok_iff {ε α β : Type} {c : Prop} [Decidable c] {e : ε}
    {f : α → Except ε β} {x : Except ε β} {b : β} :
    (if c then throw e >>= f else x) = .ok b ↔ ¬ c ∧ x = .ok b := by
  by_cases h : c
  · simp [h, throw, throwThe, MonadExceptOf.throw, bind, Except.bind]
  · simp [h]

/-- Lists whose elements agree pair by pair have the same values. -/
theorem map_eq_of_forall₂ {α β γ : Type} {f : α → γ} {g : β → γ} {l : List α} {l' : List β}
    (h : List.Forall₂ (fun a b => g b = f a) l l') : l'.map g = l.map f := by
  rw [← List.forall₂_eq_eq_eq, List.forall₂_map_left_iff, List.forall₂_map_right_iff]
  exact List.Forall₂.flip h

namespace Graph

/-- One call while a graph is put together. -/
inductive Declaration where
  | task (t : Task)
  | dependency (child : String) (parents : List String)

/-- A refused dependency leaves the graph as it was. -/
def declare (g : Graph) : Declaration → Graph
  | .task t => (g.addTask t).1
  | .dependency child parents =>
    match g.addDependency child parents with
    | .ok g' => g'
    | .error _ => g

def ofDeclarations (ds : List Declaration) : Graph := ds.foldl declare empty

/-- The index is the one that the tasks ask for, and so are the links. -/
structure WellFormed (g : Graph) : Prop where
  ids_nodup : (g.nodes.toList.map (·.task.id)).Nodup
  key?_eq_some_iff : ∀ {id : String} {k : TaskKey}, g.key? id = some k ↔ k < g.size ∧ g.id k = id
  mirror : ∀ p c, c ∈ g.children p ↔ p ∈ g.parents c
  children_nodup : ∀ k, (g.children k).Nodup
  parents_nodup : ∀ k, (g.parents k).Nodup
  ready_iff : ∀ n ∈ g.nodes, n.ready = true ↔ n.parents = []

/-! ## Nodes and keys -/

theorem parents_of_getElem? {g : Graph} {k : TaskKey} {n : Node} (h : g.nodes[k]? = some n) :
    g.parents k = n.parents := by simp [parents, h]

theorem id_of_getElem? {g : Graph} {k : TaskKey} {n : Node} (h : g.nodes[k]? = some n) :
    g.id k = n.task.id := by simp [id, h]

theorem id_of_tasks {g g' : Graph}
    (h : g'.nodes.toList.map (·.task) = g.nodes.toList.map (·.task)) (k : TaskKey) :
    g'.id k = g.id k := by
  have hk := congrArg (fun ts => ((ts[k]?).map Task.id).getD "") h
  simpa [id, Option.map_map, Function.comp_def] using hk

theorem exists_node {g : Graph} {k : TaskKey} (h : k < g.size) : ∃ n, g.nodes[k]? = some n :=
  ⟨_, Array.getElem?_eq_getElem h⟩

theorem lt_of_mem_children {g : Graph} {p c : TaskKey} (h : c ∈ g.children p) : p < g.size := by
  by_contra hp
  have hn : g.nodes[p]? = none := Array.getElem?_eq_none (not_lt.mp hp)
  simp [children, hn] at h

theorem lt_of_mem_parents {g : Graph} {p c : TaskKey} (h : p ∈ g.parents c) : c < g.size := by
  by_contra hc
  have hn : g.nodes[c]? = none := Array.getElem?_eq_none (not_lt.mp hc)
  simp [parents, hn] at h

namespace WellFormed

variable {g : Graph} (hg : g.WellFormed)
include hg

theorem child_lt {p c : TaskKey} (h : c ∈ g.children p) : c < g.size :=
  lt_of_mem_parents ((hg.mirror p c).mp h)

theorem parent_lt {p c : TaskKey} (h : p ∈ g.parents c) : p < g.size :=
  lt_of_mem_children ((hg.mirror p c).mpr h)

theorem id_injective {j k : TaskKey} (hj : j < g.size) (hk : k < g.size) (h : g.id j = g.id k) :
    j = k := by
  obtain ⟨m, hm⟩ := exists_node hj
  obtain ⟨n, hn⟩ := exists_node hk
  rw [id_of_getElem? hm, id_of_getElem? hn] at h
  have hlen : j < (g.nodes.toList.map (·.task.id)).length := by simpa [size] using hj
  refine (List.getElem?_inj hlen hg.ids_nodup).mp ?_
  simp [hm, hn, h]

theorem key?_id {k : TaskKey} (h : k < g.size) : g.key? (g.id k) = some k :=
  hg.key?_eq_some_iff.mpr ⟨h, rfl⟩

theorem key?_eq_none_iff {id : String} :
    g.key? id = none ↔ id ∉ g.nodes.toList.map (·.task.id) := by
  rw [Option.eq_none_iff_forall_ne_some]
  refine not_iff_not.mp ?_
  push Not
  simp only [hg.key?_eq_some_iff, List.mem_map, Array.mem_toList_iff]
  constructor
  · rintro ⟨k, hk, rfl⟩
    obtain ⟨n, hn⟩ := exists_node hk
    exact ⟨n, Array.mem_of_getElem? hn, (id_of_getElem? hn).symm⟩
  · rintro ⟨n, hn, rfl⟩
    obtain ⟨k, hk⟩ := Array.mem_iff_getElem?.mp hn
    exact ⟨k, (Array.getElem?_eq_some_iff.mp hk).1, id_of_getElem? hk⟩

end WellFormed

/-! ## Adding tasks -/

theorem empty_wellFormed : empty.WellFormed where
  ids_nodup := by simp [empty]
  key?_eq_some_iff := by simp [empty, key?, size]
  mirror := by simp [empty, children, parents]
  children_nodup := by simp [empty, children]
  parents_nodup := by simp [empty, parents]
  ready_iff := by simp [empty]

theorem addTask_of_key? {g : Graph} {t : Task} {k : TaskKey} (h : g.key? t.id = some k) :
    g.addTask t = (g, k) := by simp [addTask, h]

theorem addTask_of_new {g : Graph} {t : Task} (h : g.key? t.id = none) :
    g.addTask t = (g.push t, g.nodes.size) := by
  simp [addTask, h]

@[simp] theorem size_push (g : Graph) (t : Task) : (g.push t).size = g.size + 1 :=
  Array.size_push _

theorem parents_push {g : Graph} {t : Task} (k : TaskKey) :
    (g.push t).parents k = g.parents k := by
  simp only [push, parents, Array.getElem?_push]
  split <;> simp_all

theorem children_push {g : Graph} {t : Task} (k : TaskKey) :
    (g.push t).children k = g.children k := by
  simp only [push, children, Array.getElem?_push]
  split <;> simp_all

theorem id_push_of_lt {g : Graph} {t : Task} {k : TaskKey} (hk : k < g.size) :
    (g.push t).id k = g.id k := by
  have hne : k ≠ g.nodes.size := Nat.ne_of_lt hk
  rw [id, id, push, Array.getElem?_push, if_neg hne]

theorem id_push_size (g : Graph) (t : Task) : (g.push t).id g.size = t.id := by
  rw [id, size, push, Array.getElem?_push, if_pos rfl]
  rfl

theorem key?_push (g : Graph) (t : Task) (id : String) :
    (g.push t).key? id = if id = t.id then some g.size else g.key? id := by
  show (match id == t.id with | true => some g.nodes.size | false => g.index.lookup id) = _
  by_cases h : id = t.id
  · simp [h, size]
  · simp [beq_false_of_ne h, h, key?]

/-- The new task is found under its id, and every other one where it was. -/
theorem WellFormed.key?_push_eq_some_iff {g : Graph} (hg : g.WellFormed) {t : Task}
    (h : g.key? t.id = none) {id : String} {k : TaskKey} :
    (g.push t).key? id = some k ↔ k < (g.push t).size ∧ (g.push t).id k = id := by
  rw [key?_push, size_push, Nat.lt_succ_iff_lt_or_eq]
  by_cases hid : id = t.id
  · rw [if_pos hid, hid, Option.some.injEq]
    constructor
    · rintro rfl
      exact ⟨Or.inr rfl, id_push_size g t⟩
    · rintro ⟨hlt | rfl, he⟩
      · rw [id_push_of_lt hlt] at he
        rw [hg.key?_eq_some_iff.mpr ⟨hlt, he⟩] at h
        cases h
      · rfl
  · rw [if_neg hid, hg.key?_eq_some_iff]
    constructor
    · rintro ⟨hlt, he⟩
      exact ⟨Or.inl hlt, (id_push_of_lt hlt).trans he⟩
    · rintro ⟨hlt | rfl, he⟩
      · exact ⟨hlt, (id_push_of_lt hlt).symm.trans he⟩
      · exact absurd (he.symm.trans (id_push_size g t)) hid

theorem WellFormed.push {g : Graph} (hg : g.WellFormed) {t : Task} (h : g.key? t.id = none) :
    (g.push t).WellFormed := by
  have hnew := hg.key?_eq_none_iff.mp h
  refine ⟨?_, fun {id k} => ?_, ?_, ?_, ?_, ?_⟩
  · rw [Graph.push, Array.toList_push, List.map_append, List.nodup_append]
    refine ⟨hg.ids_nodup, by simp, fun a ha b hb hab => ?_⟩
    have hb : b = t.id := by simpa using hb
    exact hnew (hb ▸ hab ▸ ha)
  · exact hg.key?_push_eq_some_iff h
  · simpa only [parents_push, children_push] using hg.mirror
  · simpa only [children_push] using hg.children_nodup
  · simpa only [parents_push] using hg.parents_nodup
  · intro n hn
    rcases Array.mem_push.mp hn with hn | rfl
    · exact hg.ready_iff n hn
    · simp

theorem WellFormed.addTask {g : Graph} (hg : g.WellFormed) (t : Task) :
    (g.addTask t).1.WellFormed := by
  cases h : g.key? t.id with
  | some k => rwa [addTask_of_key? h]
  | none => rw [addTask_of_new h]; exact hg.push h

/-! ## Adding dependencies -/

theorem getElem?_link {g : Graph} {p c : TaskKey} (h : c ∉ g.children p) (k : TaskKey) :
    (g.link p c).nodes[k]? = g.nodes[k]?.map fun n =>
      { n with
        parents := if k = c then n.parents ++ [p] else n.parents
        children := if k = p then n.children ++ [c] else n.children
        ready := if k = c then false else n.ready } := by
  simp only [link, h, if_false, Array.getElem?_modify]
  by_cases hp : p = k <;> by_cases hc : c = k <;> cases g.nodes[k]? <;>
    simp_all [Node.addParent, Node.addChild, eq_comm]

theorem link_of_mem {g : Graph} {p c : TaskKey} (h : c ∈ g.children p) : g.link p c = g := by
  simp [link, h]

@[simp] theorem size_link (g : Graph) (p c : TaskKey) : (g.link p c).size = g.size := by
  unfold link
  split <;> simp [size]

theorem tasks_link (g : Graph) (p c : TaskKey) :
    (g.link p c).nodes.toList.map (·.task) = g.nodes.toList.map (·.task) := by
  by_cases h : c ∈ g.children p
  · rw [link_of_mem h]
  · refine List.ext_getElem? fun k => ?_
    simp only [List.getElem?_map, Array.getElem?_toList, getElem?_link h, Option.map_map]
    rfl

theorem key?_link (g : Graph) (p c : TaskKey) : (g.link p c).key? = g.key? := by
  unfold link
  split <;> rfl

theorem children_link {g : Graph} {p c : TaskKey} (hp : p < g.size) (k : TaskKey) :
    (g.link p c).children k =
      if k = p ∧ c ∉ g.children p then g.children p ++ [c] else g.children k := by
  by_cases h : c ∈ g.children p
  · simp [link_of_mem h, h]
  · by_cases hk : k = p
    · obtain ⟨n, hn⟩ := exists_node hp
      subst hk
      simp [children, getElem?_link h, hn, show c ∉ n.children by simpa [children, hn] using h]
    · simp [children, getElem?_link h, hk, Option.map_map, Function.comp_def]

theorem parents_link {g : Graph} {p c : TaskKey} (hc : c < g.size) (k : TaskKey) :
    (g.link p c).parents k =
      if k = c ∧ c ∉ g.children p then g.parents c ++ [p] else g.parents k := by
  by_cases h : c ∈ g.children p
  · simp [link_of_mem h, h]
  · by_cases hk : k = c
    · obtain ⟨n, hn⟩ := exists_node hc
      subst hk
      simp [parents, getElem?_link h, hn, h]
    · simp [parents, getElem?_link h, hk, Option.map_map, Function.comp_def]

theorem mem_children_link {g : Graph} {p c : TaskKey} (hp : p < g.size) {j k : TaskKey} :
    k ∈ (g.link p c).children j ↔ k ∈ g.children j ∨ j = p ∧ k = c := by
  rw [children_link hp]
  by_cases hj : j = p <;> by_cases h : c ∈ g.children p <;> grind

theorem mem_parents_link {g : Graph} (hg : g.WellFormed) {p c : TaskKey} (hc : c < g.size)
    {j k : TaskKey} : j ∈ (g.link p c).parents k ↔ j ∈ g.parents k ∨ k = c ∧ j = p := by
  have hm := hg.mirror p c
  rw [parents_link hc]
  by_cases hk : k = c <;> by_cases h : c ∈ g.children p <;> grind

theorem WellFormed.link {g : Graph} (hg : g.WellFormed) {p c : TaskKey} (hp : p < g.size)
    (hc : c < g.size) : (g.link p c).WellFormed := by
  by_cases h : c ∈ g.children p
  · rwa [link_of_mem h]
  have hm : p ∉ g.parents c := fun hm => h ((hg.mirror p c).mpr hm)
  refine ⟨?_, ?_, ?_, ?_, ?_, ?_⟩
  · have ht := congrArg (List.map Task.id) (tasks_link g p c)
    simp only [List.map_map, Function.comp_def] at ht
    rw [ht]; exact hg.ids_nodup
  · intro id k
    rw [key?_link, size_link, id_of_tasks (tasks_link g p c)]
    exact hg.key?_eq_some_iff
  · intro j k
    rw [mem_children_link hp, mem_parents_link hg hc, hg.mirror j k, and_comm]
  · intro k
    rw [children_link hp]
    split
    · exact List.nodup_append.mpr ⟨hg.children_nodup p, by simp, by grind⟩
    · exact hg.children_nodup k
  · intro k
    rw [parents_link hc]
    split
    · exact List.nodup_append.mpr ⟨hg.parents_nodup c, by simp, by grind⟩
    · exact hg.parents_nodup k
  · intro n hn
    obtain ⟨k, hk⟩ := Array.mem_iff_getElem?.mp hn
    rw [getElem?_link h] at hk
    obtain ⟨m, hm, rfl⟩ := Option.map_eq_some_iff.mp hk
    have hr := hg.ready_iff m (Array.mem_of_getElem? hm)
    by_cases hkc : k = c <;> simp [hkc, hr]

/-- Edges from each of `ps` to `c`, those that are there already left out. -/
def linkAll (g : Graph) (ps : List TaskKey) (c : TaskKey) : Graph :=
  ps.foldl (fun g p => g.link p c) g

/-- Linking keeps a graph well formed and adds exactly the edges asked for. -/
theorem WellFormed.linkAll {g : Graph} (hg : g.WellFormed) {ps : List TaskKey} {c : TaskKey}
    (hps : ∀ p ∈ ps, p < g.size) (hc : c < g.size) : (g.linkAll ps c).WellFormed ∧
      ∀ j k, j ∈ (g.linkAll ps c).parents k ↔ j ∈ g.parents k ∨ k = c ∧ j ∈ ps := by
  induction ps generalizing g with
  | nil => exact ⟨hg, fun j k => by simp [Graph.linkAll]⟩
  | cons p ps ih =>
    have hp : p < g.size := hps p (by simp)
    obtain ⟨hw, he⟩ := ih (hg.link hp hc)
      (fun q hq => by simpa using hps q (List.mem_cons_of_mem p hq)) (by simpa using hc)
    refine ⟨hw, fun j k => (he j k).trans ?_⟩
    rw [mem_parents_link hg hc, List.mem_cons]
    tauto

theorem keyOf_eq_ok_iff {g : Graph} {id : String} {k : TaskKey} :
    g.keyOf id = .ok k ↔ g.key? id = some k := by
  unfold keyOf
  cases g.key? id <;> simp

theorem mapM_keyOf_eq_ok_iff {g : Graph} {ids : List String} {ks : List TaskKey} :
    ids.mapM g.keyOf = .ok ks ↔ ids.map g.key? = ks.map some := by
  induction ids generalizing ks with
  | nil => cases ks <;> simp [pure_eq_ok_iff]
  | cons id ids ih =>
    simp only [List.mapM_cons, bind_eq_ok_iff, pure_eq_ok_iff, keyOf_eq_ok_iff, ih]
    cases ks with
    | nil => simp
    | cons k ks => simp

/-- A dependency is accepted just when all its ids are known. -/
theorem addDependency_eq_ok_iff {g g' : Graph} {child : String} {parents : List String} :
    g.addDependency child parents = .ok g' ↔ ∃ c ps, g.key? child = some c ∧
      parents.map g.key? = ps.map some ∧ g.linkAll ps c = g' := by
  simp only [addDependency, bind_eq_ok_iff, pure_eq_ok_iff, keyOf_eq_ok_iff, mapM_keyOf_eq_ok_iff]
  constructor
  · rintro ⟨c, hc, ps, hps, rfl⟩
    exact ⟨c, ps, hc, hps, rfl⟩
  · rintro ⟨c, ps, hc, hps, rfl⟩
    exact ⟨c, hc, ps, hps, rfl⟩

theorem WellFormed.addDependency {g g' : Graph} (hg : g.WellFormed) {child : String}
    {parents : List String} (h : g.addDependency child parents = .ok g') : g'.WellFormed := by
  obtain ⟨c, ps, hc, hps, rfl⟩ := addDependency_eq_ok_iff.mp h
  refine (hg.linkAll (fun p hp => ?_) (hg.key?_eq_some_iff.mp hc).1).1
  obtain ⟨id, -, hid⟩ := List.mem_map.mp (hps ▸ List.mem_map_of_mem hp)
  exact (hg.key?_eq_some_iff.mp hid).1

/-- What one call can do to a graph. -/
theorem declare_cases (g : Graph) (d : Declaration) :
    (∃ t, g.declare d = (g.addTask t).1) ∨
      (∃ child parents, g.addDependency child parents = .ok (g.declare d)) ∨ g.declare d = g := by
  cases d with
  | task t => exact Or.inl ⟨t, rfl⟩
  | dependency child parents =>
    cases h : g.addDependency child parents with
    | ok g' => exact Or.inr (Or.inl ⟨child, parents, by simp [declare, h]⟩)
    | error e => exact Or.inr (Or.inr (by simp [declare, h]))

theorem WellFormed.declare {g : Graph} (hg : g.WellFormed) (d : Declaration) :
    (g.declare d).WellFormed := by
  obtain ⟨t, h⟩ | ⟨child, parents, h⟩ | h := declare_cases g d
  · rw [h]; exact hg.addTask t
  · exact hg.addDependency h
  · rwa [h]

theorem ofDeclarations_wellFormed (ds : List Declaration) : (ofDeclarations ds).WellFormed := by
  suffices h : ∀ g : Graph, g.WellFormed → (ds.foldl declare g).WellFormed from
    h empty empty_wellFormed
  induction ds with
  | nil => exact fun g hg => hg
  | cons d ds ih => exact fun g hg => ih _ (hg.declare d)

/-! ## Graphs that were not preprocessed -/

theorem preprocessed_addTask (g : Graph) (t : Task) :
    (g.addTask t).1.preprocessed = g.preprocessed := by
  unfold addTask
  split <;> rfl

theorem preprocessed_link (g : Graph) (p c : TaskKey) :
    (g.link p c).preprocessed = g.preprocessed := by
  unfold link
  split <;> rfl

theorem preprocessed_linkAll (g : Graph) (ps : List TaskKey) (c : TaskKey) :
    (g.linkAll ps c).preprocessed = g.preprocessed := by
  induction ps generalizing g with
  | nil => rfl
  | cons p ps ih => exact (ih (g.link p c)).trans (preprocessed_link g p c)

theorem preprocessed_addDependency {g g' : Graph} {child : String} {parents : List String}
    (h : g.addDependency child parents = .ok g') : g'.preprocessed = g.preprocessed := by
  obtain ⟨c, ps, -, -, rfl⟩ := addDependency_eq_ok_iff.mp h
  exact preprocessed_linkAll g ps c

theorem preprocessed_ofDeclarations (ds : List Declaration) :
    (ofDeclarations ds).preprocessed = false := by
  suffices h : ∀ g : Graph, (ds.foldl declare g).preprocessed = g.preprocessed from h empty
  induction ds with
  | nil => exact fun g => rfl
  | cons d ds ih =>
    refine fun g => (ih _).trans ?_
    obtain ⟨t, h⟩ | ⟨child, parents, h⟩ | h := declare_cases g d
    · rw [h]; exact preprocessed_addTask g t
    · exact preprocessed_addDependency h
    · rw [h]

/-- Nothing was derived yet. -/
def Underived (g : Graph) : Prop := ∀ n ∈ g.nodes, n.level = none ∧ n.descendants = .empty

theorem empty_underived : empty.Underived := fun n hn => by simp [empty] at hn

theorem Underived.addTask {g : Graph} (hg : g.Underived) (t : Task) :
    (g.addTask t).1.Underived := by
  cases hkey : g.key? t.id with
  | some k => rwa [addTask_of_key? hkey]
  | none =>
    rw [addTask_of_new hkey]
    intro n hn
    rcases Array.mem_push.mp hn with hn | rfl
    · exact hg n hn
    · exact ⟨rfl, rfl⟩

theorem Underived.link {g : Graph} (hg : g.Underived) (p c : TaskKey) : (g.link p c).Underived := by
  by_cases hc : c ∈ g.children p
  · rwa [link_of_mem hc]
  · intro n hn
    obtain ⟨k, hk⟩ := Array.mem_iff_getElem?.mp hn
    rw [getElem?_link hc] at hk
    obtain ⟨m, hm, rfl⟩ := Option.map_eq_some_iff.mp hk
    exact hg m (Array.mem_of_getElem? hm)

theorem Underived.linkAll {g : Graph} (hg : g.Underived) (ps : List TaskKey) (c : TaskKey) :
    (g.linkAll ps c).Underived := by
  induction ps generalizing g with
  | nil => exact hg
  | cons p ps ih => exact ih (hg.link p c)

theorem underived_ofDeclarations (ds : List Declaration) : (ofDeclarations ds).Underived := by
  suffices h : ∀ g : Graph, g.Underived → (ds.foldl declare g).Underived from
    h empty empty_underived
  induction ds with
  | nil => exact fun g hg => hg
  | cons d ds ih =>
    refine fun g hg => ih _ ?_
    obtain ⟨t, h⟩ | ⟨child, parents, h⟩ | h := declare_cases g d
    · rw [h]; exact hg.addTask t
    · obtain ⟨c, ps, -, -, he⟩ := addDependency_eq_ok_iff.mp h
      rw [← he]; exact hg.linkAll ps c
    · rwa [h]

/-! ## Preprocessing -/

/-- What preprocessing leaves as it is. -/
def outline (g : Graph) :
    List (String × TaskKey) × List (Task × List TaskKey × List TaskKey × Bool) :=
  (g.index, g.nodes.toList.map fun n => (n.task, n.parents, n.children, n.ready))

theorem outline_deriveLevels (g : Graph) : g.deriveLevels.outline = g.outline := by
  refine Prod.ext rfl (List.ext_getElem? fun k => ?_)
  simp [outline, deriveLevels, Option.map_map, Function.comp_def]

theorem outline_deriveDescendants (g : Graph) : g.deriveDescendants.outline = g.outline := by
  refine Prod.ext rfl (List.ext_getElem? fun k => ?_)
  simp [outline, deriveDescendants, Option.map_map, Function.comp_def]

theorem key?_of_outline {g g' : Graph} (h : g'.outline = g.outline) : g'.key? = g.key? := by
  funext id
  exact congrArg (fun o => o.1.lookup id) h

theorem nodes_of_outline {g g' : Graph} (h : g'.outline = g.outline) :
    g'.nodes.toList.map (fun n => (n.task, n.parents, n.children, n.ready)) =
      g.nodes.toList.map fun n => (n.task, n.parents, n.children, n.ready) := congrArg Prod.snd h

theorem size_of_outline {g g' : Graph} (h : g'.outline = g.outline) : g'.size = g.size := by
  simpa [size] using congrArg List.length (nodes_of_outline h)

theorem getElem?_of_outline {g g' : Graph} (h : g'.outline = g.outline) (k : TaskKey) :
    g'.nodes[k]?.map (fun n => (n.task, n.parents, n.children, n.ready)) =
      g.nodes[k]?.map fun n => (n.task, n.parents, n.children, n.ready) := by
  simpa using congrArg (·[k]?) (nodes_of_outline h)

theorem parents_of_outline {g g' : Graph} (h : g'.outline = g.outline) (k : TaskKey) :
    g'.parents k = g.parents k := by
  have hk := congrArg (Option.map fun n => n.2.1) (getElem?_of_outline h k)
  simp only [Option.map_map, Function.comp_def] at hk
  simp [parents, hk]

theorem children_of_outline {g g' : Graph} (h : g'.outline = g.outline) (k : TaskKey) :
    g'.children k = g.children k := by
  have hk := congrArg (Option.map fun n => n.2.2.1) (getElem?_of_outline h k)
  simp only [Option.map_map, Function.comp_def] at hk
  simp [children, hk]

theorem task_of_outline {g g' : Graph} (h : g'.outline = g.outline) (k : TaskKey) :
    g'.nodes[k]?.map (·.task) = g.nodes[k]?.map (·.task) := by
  have hk := congrArg (Option.map fun n => n.1) (getElem?_of_outline h k)
  simpa only [Option.map_map, Function.comp_def] using hk

theorem tasks_of_outline {g g' : Graph} (h : g'.outline = g.outline) :
    g'.nodes.toList.map (·.task) = g.nodes.toList.map (·.task) := by
  simpa only [List.map_map, Function.comp_def] using
    congrArg (List.map fun n => n.1) (nodes_of_outline h)

theorem id_of_outline {g g' : Graph} (h : g'.outline = g.outline) (k : TaskKey) :
    g'.id k = g.id k := id_of_tasks (tasks_of_outline h) k

theorem ready_of_outline {g g' : Graph} (h : g'.outline = g.outline) :
    g'.nodes.map (·.ready) = g.nodes.map (·.ready) := by
  have hr := congrArg (List.map fun n => n.2.2.2) (nodes_of_outline h)
  simp only [List.map_map, Function.comp_def] at hr
  exact Array.toList_inj.mp (by simpa using hr)

theorem WellFormed.of_outline {g g' : Graph} (hg : g.WellFormed) (h : g'.outline = g.outline) :
    g'.WellFormed where
  ids_nodup := by
    have hi := congrArg (List.map Task.id) (tasks_of_outline h)
    simp only [List.map_map, Function.comp_def] at hi
    rw [hi]; exact hg.ids_nodup
  key?_eq_some_iff := by
    intro id k
    rw [key?_of_outline h, size_of_outline h, id_of_outline h]
    exact hg.key?_eq_some_iff
  mirror p c := by
    rw [children_of_outline h, parents_of_outline h]; exact hg.mirror p c
  children_nodup k := by rw [children_of_outline h]; exact hg.children_nodup k
  parents_nodup k := by rw [parents_of_outline h]; exact hg.parents_nodup k
  ready_iff n hn := by
    have hm : (n.task, n.parents, n.children, n.ready) ∈
        g'.nodes.toList.map fun n => (n.task, n.parents, n.children, n.ready) :=
      List.mem_map_of_mem (by simpa using hn)
    rw [nodes_of_outline h] at hm
    obtain ⟨m, hm, he⟩ := List.mem_map.mp hm
    simp only [Prod.mk.injEq] at he
    rw [← he.2.1, ← he.2.2.2]
    exact hg.ready_iff m (by simpa using hm)

/-- A graph that was not preprocessed can be, for any attributes: the nodes keep their tasks and
edges, and the roots are the tasks without parents. -/
theorem preprocess_ok {g : Graph} (h : g.preprocessed = false) (attributes : Attributes) :
    ∃ g', g.preprocess attributes = .ok g' ∧ g'.outline = g.outline ∧
      g'.preprocessed = true ∧ g'.roots = g.findRoots := by
  unfold preprocess
  simp only [h, Bool.false_eq_true, if_false]
  refine ⟨_, rfl, ?_, ?_, ?_⟩
  · have hb : g.bounded.outline = g.outline := rfl
    split <;> split <;> simp only [outline_deriveDescendants, outline_deriveLevels, hb]
  · split <;> split <;> rfl
  · split <;> split <;> rfl

theorem mem_findRoots {g : Graph} {k : TaskKey} :
    k ∈ g.findRoots ↔ k < g.size ∧ g.parents k = [] := by simp [findRoots]

theorem findRoots_nodup (g : Graph) : g.findRoots.Nodup := List.nodup_range.filter _

end Graph

end Makespan
