import Makespan.Proofs.Workflow.Validated

/-! What a graph is after any calls. Its tasks are the first ones of each id in order of insertion,
and its edges those that the accepted dependencies list, each once and in order of first
declaration. A refused dependency leaves no trace. -/

namespace Makespan

theorem eraseDups_snoc {α : Type} [DecidableEq α] (l : List α) (a : α) :
    (l ++ [a]).eraseDups = if a ∈ l then l.eraseDups else l.eraseDups ++ [a] := by
  rw [List.eraseDups_append]
  by_cases h : a ∈ l <;> simp [List.removeAll, h, List.eraseDups_cons]

namespace Graph

/-! ## What the calls say -/

def Declaration.task? : Declaration → Option Task
  | task t => some t
  | dependency _ _ => none

/-- The pairs of a parent and its child that a call lists, unless the graph refuses it. -/
def Declaration.pairs (g : Graph) : Declaration → List (String × String)
  | task _ => []
  | dependency child parents =>
    match g.addDependency child parents with
    | .ok _ => parents.map fun p => (p, child)
    | .error _ => []

/-- The pairs that calls list in order, without those of the calls that are refused. -/
def acceptedPairs (g : Graph) : List Declaration → List (String × String)
  | [] => []
  | d :: ds => d.pairs g ++ acceptedPairs (g.declare d) ds

/-- The parents that pairs name for a child. -/
def parentsIn (es : List (String × String)) (child : String) : List String :=
  (es.filter (·.2 = child)).map (·.1)

/-- The children that pairs name for a parent. -/
def childrenIn (es : List (String × String)) (parent : String) : List String :=
  (es.filter (·.1 = parent)).map (·.2)

theorem mem_parentsIn {es : List (String × String)} {p c : String} :
    p ∈ parentsIn es c ↔ (p, c) ∈ es := by
  simp [parentsIn]

theorem mem_childrenIn {es : List (String × String)} {p c : String} :
    c ∈ childrenIn es p ↔ (p, c) ∈ es := by
  simp [childrenIn]

theorem parentsIn_snoc (es : List (String × String)) (e : String × String) (c : String) :
    parentsIn (es ++ [e]) c = parentsIn es c ++ if e.2 = c then [e.1] else [] := by
  by_cases h : e.2 = c <;> simp [parentsIn, List.filter_append, h]

theorem childrenIn_snoc (es : List (String × String)) (e : String × String) (p : String) :
    childrenIn (es ++ [e]) p = childrenIn es p ++ if e.1 = p then [e.2] else [] := by
  by_cases h : e.1 = p <;> simp [childrenIn, List.filter_append, h]

theorem mem_ids {g : Graph} {k : TaskKey} (h : k < g.size) : g.id k ∈ g.ids := by
  obtain ⟨n, hn⟩ := exists_node h
  rw [id_of_getElem? hn]
  exact List.mem_map_of_mem (by simpa using Array.mem_of_getElem? hn)

/-- A graph that has the tasks `ts` and the edges `es`, declared in this order and some perhaps
again. -/
structure Holds (g : Graph) (ts : List Task) (es : List (String × String)) : Prop where
  wellFormed : g.WellFormed
  ids : g.ids = (ts.map (·.id)).eraseDups
  first : ∀ n ∈ g.nodes, ts.find? (·.id = n.task.id) = some n.task
  known : ∀ e ∈ es, e.1 ∈ g.ids ∧ e.2 ∈ g.ids
  parents : ∀ k < g.size, (g.parents k).map g.id = (parentsIn es (g.id k)).eraseDups
  children : ∀ k < g.size, (g.children k).map g.id = (childrenIn es (g.id k)).eraseDups

namespace Holds

variable {g : Graph} {ts : List Task} {es : List (String × String)}

theorem empty : Holds Graph.empty [] [] where
  wellFormed := empty_wellFormed
  ids := rfl
  first n hn := by simp [Graph.empty] at hn
  known e he := by cases he
  parents k hk := by simp [Graph.empty, size] at hk
  children k hk := by simp [Graph.empty, size] at hk

theorem mem_ids_iff (h : g.Holds ts es) {id : String} : id ∈ g.ids ↔ id ∈ ts.map (·.id) := by
  rw [h.ids, List.mem_eraseDups]

theorem edge_iff (h : g.Holds ts es) {p c : TaskKey} (hp : p < g.size) (hc : c < g.size) :
    (g.id p, g.id c) ∈ es ↔ c ∈ g.children p := by
  rw [← mem_childrenIn, ← List.mem_eraseDups, ← h.children p hp, List.mem_map]
  constructor
  · rintro ⟨j, hj, he⟩
    exact h.wellFormed.id_injective (h.wellFormed.child_lt hj) hc he ▸ hj
  · exact fun hm => ⟨c, hm, rfl⟩

/-- The edges of the graph, told by the ids of their ends. -/
theorem mem_pairs_iff (h : g.Holds ts es) {x y : String} : (x, y) ∈ es ↔
    ∃ p c, g.key? x = some p ∧ g.key? y = some c ∧ c ∈ g.children p := by
  constructor
  · intro hxy
    obtain ⟨hx, hy⟩ := h.known _ hxy
    obtain ⟨hp, hpid⟩ := h.wellFormed.keyFor_id hx
    obtain ⟨hc, hcid⟩ := h.wellFormed.keyFor_id hy
    refine ⟨_, _, h.wellFormed.key?_keyFor hx, h.wellFormed.key?_keyFor hy,
      (h.edge_iff hp hc).mp ?_⟩
    rwa [hpid, hcid]
  · rintro ⟨p, c, hx, hy, hpc⟩
    obtain ⟨hp, rfl⟩ := h.wellFormed.key?_eq_some_iff.mp hx
    obtain ⟨hc, rfl⟩ := h.wellFormed.key?_eq_some_iff.mp hy
    exact (h.edge_iff hp hc).mpr hpc

/-! ## Adding tasks -/

/-- A task whose id is taken. -/
theorem drop (h : g.Holds ts es) {t : Task} (ht : t.id ∈ g.ids) : g.Holds (ts ++ [t]) es where
  wellFormed := h.wellFormed
  ids := by
    rw [List.map_append, List.map_singleton, eraseDups_snoc, if_pos (h.mem_ids_iff.mp ht)]
    exact h.ids
  first n hn := by rw [List.find?_append, h.first n hn, Option.some_or]
  known := h.known
  parents := h.parents
  children := h.children

/-- The names in a side of the edges stay as they are when a task comes that they do not name. -/
theorem names_push {keys : TaskKey → List TaskKey} {names : String → List String}
    (h : ∀ k < g.size, (keys k).map g.id = (names (g.id k)).eraseDups)
    (hlt : ∀ k, ∀ j ∈ keys k, j < g.size) (hlast : keys g.size = []) {t : Task}
    (hnew : names t.id = []) {k : TaskKey} (hk : k < g.size + 1) :
    (keys k).map (g.push t).id = (names ((g.push t).id k)).eraseDups := by
  rcases Nat.lt_succ_iff_lt_or_eq.mp hk with hk | rfl
  · rw [id_push_of_lt hk, ← h k hk]
    exact List.map_congr_left fun j hj => id_push_of_lt (hlt k j hj)
  · rw [id_push_size, hnew, hlast]
    rfl

/-- A task with a new id. Pairs do not name it, since they name known tasks only. -/
theorem push (h : g.Holds ts es) {t : Task} (ht : t.id ∉ g.ids) :
    (g.push t).Holds (ts ++ [t]) es := by
  have hids : (g.push t).ids = g.ids ++ [t.id] := by
    simp [Graph.push, Graph.ids]
  have hsize := size_push g t
  refine ⟨h.wellFormed.push (h.wellFormed.key?_eq_none_iff.mpr ht), ?_, fun n hn => ?_,
    fun e he => ?_, fun k hk => ?_, fun k hk => ?_⟩
  · rw [hids, List.map_append, List.map_singleton, eraseDups_snoc,
      if_neg fun hm => ht (h.mem_ids_iff.mpr hm), h.ids]
  · rcases Array.mem_push.mp hn with hn | rfl
    · rw [List.find?_append, h.first n hn, Option.some_or]
    · have hnone : ts.find? (·.id = t.id) = none := List.find?_eq_none.mpr fun s hs he =>
        ht (h.mem_ids_iff.mpr (List.mem_map.mpr ⟨s, hs, of_decide_eq_true he⟩))
      simp [List.find?_append, hnone]
  · rw [hids]
    exact ⟨List.mem_append_left _ (h.known e he).1, List.mem_append_left _ (h.known e he).2⟩
  · rw [parents_push]
    refine names_push h.parents (fun _ _ => h.wellFormed.parent_lt) ?_ ?_ (hsize ▸ hk)
    · exact List.eq_nil_iff_forall_not_mem.mpr fun p hp =>
        absurd (lt_of_mem_parents hp) (lt_irrefl _)
    · exact List.eq_nil_iff_forall_not_mem.mpr fun p hp =>
        ht (h.known _ (mem_parentsIn.mp hp)).2
  · rw [children_push]
    refine names_push h.children (fun _ _ => h.wellFormed.child_lt) ?_ ?_ (hsize ▸ hk)
    · exact List.eq_nil_iff_forall_not_mem.mpr fun c hc =>
        absurd (lt_of_mem_children hc) (lt_irrefl _)
    · exact List.eq_nil_iff_forall_not_mem.mpr fun c hc =>
        ht (h.known _ (mem_childrenIn.mp hc)).1

theorem addTask (h : g.Holds ts es) (t : Task) : (g.addTask t).1.Holds (ts ++ [t]) es := by
  by_cases ht : t.id ∈ g.ids
  · rw [addTask_of_key? (h.wellFormed.key?_keyFor ht)]
    exact h.drop ht
  · rw [addTask_of_new (h.wellFormed.key?_eq_none_iff.mpr ht)]
    exact h.push ht

/-! ## Adding edges -/

/-- A side of the edges goes on in step with the names in it. -/
theorem names_snoc (hg : g.WellFormed) {keys : TaskKey → List TaskKey}
    {names : String → List String}
    (h : ∀ k < g.size, (keys k).map g.id = (names (g.id k)).eraseDups) {i j : TaskKey}
    (hi : i < g.size) {new : Prop} [Decidable new] (hnew : g.id j ∈ names (g.id i) ↔ ¬ new)
    {k : TaskKey} (hk : k < g.size) :
    (if k = i ∧ new then keys i ++ [j] else keys k).map g.id =
      (names (g.id k) ++ if g.id i = g.id k then [g.id j] else []).eraseDups := by
  by_cases hki : k = i
  · subst hki
    rw [if_pos rfl, eraseDups_snoc, ← h k hk]
    by_cases hn : new
    · rw [if_pos ⟨rfl, hn⟩, if_neg fun hm => hnew.mp hm hn, List.map_append, List.map_singleton]
    · rw [if_neg fun hm => hn hm.2, if_pos (hnew.mpr hn)]
  · have hne : g.id i ≠ g.id k := fun he => hki (hg.id_injective hi hk he).symm
    rw [if_neg fun hm => hki hm.1, if_neg hne, List.append_nil]
    exact h k hk

/-- An edge that is declared again adds nothing; a new one comes last with its parent and with its
child. -/
theorem link (h : g.Holds ts es) {p c : TaskKey} (hp : p < g.size) (hc : c < g.size) :
    (g.link p c).Holds ts (es ++ [(g.id p, g.id c)]) := by
  have htasks := tasks_link g p c
  have hids := ids_of_tasks_eq htasks
  have hid : Graph.id (g.link p c) = g.id := funext (id_of_tasks htasks)
  have hedge : (g.id p, g.id c) ∈ es ↔ ¬ c ∉ g.children p := by rw [not_not, h.edge_iff hp hc]
  refine ⟨h.wellFormed.link hp hc, hids.trans h.ids, fun n hn => ?_, fun e he => ?_,
    fun k hk => ?_, fun k hk => ?_⟩
  · have ht : n.task ∈ g.nodes.toList.map (·.task) := by
      rw [← htasks]
      exact List.mem_map_of_mem (by simpa using hn)
    obtain ⟨m, hm, he⟩ := List.mem_map.mp ht
    rw [← he]
    exact h.first m (by simpa using hm)
  · rw [hids]
    rcases List.mem_append.mp he with he | he
    · exact h.known e he
    · rw [List.mem_singleton.mp he]
      exact ⟨mem_ids hp, mem_ids hc⟩
  · rw [size_link] at hk
    rw [hid, parents_link hc, parentsIn_snoc]
    exact names_snoc h.wellFormed h.parents hc (mem_parentsIn.trans hedge) hk
  · rw [size_link] at hk
    rw [hid, children_link hp, childrenIn_snoc]
    exact names_snoc h.wellFormed h.children hp (mem_childrenIn.trans hedge) hk

theorem linkPairs (h : g.Holds ts es) {new : List (String × String)}
    (hnew : ∀ e ∈ new, e.1 ∈ g.ids ∧ e.2 ∈ g.ids) : (g.linkPairs new).Holds ts (es ++ new) := by
  induction new generalizing g es with
  | nil => rwa [List.append_nil]
  | cons e new ih =>
    obtain ⟨hp, hc⟩ := hnew e List.mem_cons_self
    obtain ⟨hplt, hpid⟩ := h.wellFormed.keyFor_id hp
    obtain ⟨hclt, hcid⟩ := h.wellFormed.keyFor_id hc
    have hlink := h.link hplt hclt
    rw [hpid, hcid] at hlink
    have hids := ids_of_tasks_eq (tasks_link g (g.keyFor e.1) (g.keyFor e.2))
    have hrest := ih hlink fun d hd => hids ▸ hnew d (List.mem_cons_of_mem e hd)
    rwa [List.append_assoc] at hrest

end Holds

/-! ## Refused dependencies -/

section Refused

variable {g : Graph} (hg : g.WellFormed)
include hg

theorem keyOf_eq_error_iff {id : String} {e : Error} :
    g.keyOf id = .error e ↔ id ∉ g.ids ∧ e = .unknownTask id := by
  unfold keyOf
  cases hk : g.key? id with
  | some k =>
    have hm : id ∈ g.ids := by
      by_contra hn
      rw [hg.key?_eq_none_iff.mpr hn] at hk
      cases hk
    simp [hm]
  | none => simp [show id ∉ g.ids from hg.key?_eq_none_iff.mp hk, eq_comm]

/-- The first unknown id is reported. -/
theorem mapM_keyOf_eq_error_iff {ids : List String} {e : Error} :
    ids.mapM g.keyOf = .error e ↔ ∃ id, ids.find? (· ∉ g.ids) = some id ∧ e = .unknownTask id := by
  induction ids with
  | nil => simp [pure, Except.pure]
  | cons id ids ih =>
    rw [List.mapM_cons, bind_eq_error_iff, keyOf_eq_error_iff hg, List.find?_cons]
    by_cases hm : id ∈ g.ids
    · have hk := keyOf_eq_ok_iff.mpr (hg.key?_keyFor hm)
      simp [hm, hk, bind_eq_error_iff, ih, pure, Except.pure]
    · simp [hm, keyOf_eq_ok_iff, show g.key? id = none from hg.key?_eq_none_iff.mpr hm]

theorem addDependency_eq_error_iff {child : String} {parents : List String} {e : Error} :
    g.addDependency child parents = .error e ↔
      ∃ id, (child :: parents).find? (· ∉ g.ids) = some id ∧ e = .unknownTask id := by
  rw [← mapM_keyOf_eq_error_iff hg, List.mapM_cons, addDependency, bind_eq_error_iff,
    bind_eq_error_iff]
  simp only [bind_eq_error_iff, pure, Except.pure, reduceCtorEq, and_false, exists_false, or_false]

theorem known_of_addDependency {g' : Graph} {child : String} {parents : List String}
    (h : g.addDependency child parents = .ok g') : ∀ id ∈ child :: parents, id ∈ g.ids := by
  intro id hid
  by_contra hn
  have hsome : ((child :: parents).find? (· ∉ g.ids)).isSome = true :=
    List.find?_isSome.mpr ⟨id, hid, decide_eq_true hn⟩
  obtain ⟨x, hx⟩ := Option.isSome_iff_exists.mp hsome
  rw [(addDependency_eq_error_iff hg).mpr ⟨x, hx, rfl⟩] at h
  cases h

end Refused

/-! ## Calls in place -/

/-- A change of a graph, step by step; a failure undoes nothing that was done before. -/
abbrev InPlace := ExceptT Error (StateM Graph)

namespace InPlace

def keyOf (id : String) : InPlace TaskKey := do
  (← getThe Graph).keyOf id

/-- Every look-up and every new edge is a step of its own. -/
def addDependency (child : String) (parents : List String) : InPlace Unit := do
  let c ← keyOf child
  let ps ← parents.mapM keyOf
  ps.forM fun p => modifyThe Graph (·.link p c)

theorem run_bind {α β : Type} (x : InPlace α) (f : α → InPlace β) (g : Graph) :
    (x >>= f).run.run g = match x.run.run g with
      | (.ok a, g') => (f a).run.run g'
      | (.error e, g') => (.error e, g') := by
  rw [ExceptT.run_bind, StateT.run_bind]
  show (match x.run.run g with | (r, g') => _) = _
  rcases x.run.run g with ⟨a | e, g'⟩ <;> rfl

theorem run_keyOf (id : String) (g : Graph) : (keyOf id).run.run g = (g.keyOf id, g) := by
  rfl

theorem run_keysOf (ids : List String) (g : Graph) :
    (ids.mapM keyOf).run.run g = (ids.mapM g.keyOf, g) := by
  induction ids with
  | nil => rfl
  | cons id ids ih =>
    rw [List.mapM_cons, List.mapM_cons, run_bind, run_keyOf]
    cases g.keyOf id with
    | error e => rfl
    | ok k =>
      simp only [run_bind, ih]
      cases ids.mapM g.keyOf <;> rfl

theorem run_links (ps : List TaskKey) (c : TaskKey) (g : Graph) :
    (ps.forM fun p => modifyThe Graph (·.link p c) : InPlace Unit).run.run g =
      (.ok (), g.linkAll ps c) := by
  induction ps generalizing g with
  | nil => rfl
  | cons p ps ih =>
    exact ih (g.link p c)

theorem run_addDependency (child : String) (parents : List String) (g : Graph) :
    (addDependency child parents).run.run g = match g.addDependency child parents with
      | .ok g' => (.ok (), g')
      | .error e => (.error e, g) := by
  unfold addDependency Graph.addDependency
  rw [run_bind, run_keyOf]
  cases g.keyOf child with
  | error e => rfl
  | ok c =>
    simp only [run_bind, run_keysOf]
    cases parents.mapM g.keyOf with
    | error e => rfl
    | ok ps => exact run_links ps c g

/-- A call with an unknown id has no effect but its error. -/
theorem run_addDependency_of_find {g : Graph} (hg : g.WellFormed) (child : String)
    (parents : List String) : (addDependency child parents).run.run g =
      match (child :: parents).find? (· ∉ g.ids) with
      | some id => (.error (.unknownTask id), g)
      | none => (.ok (), g.declare (.dependency child parents)) := by
  rw [run_addDependency]
  cases hf : (child :: parents).find? (· ∉ g.ids) with
  | some id => rw [(addDependency_eq_error_iff hg).mpr ⟨id, hf, rfl⟩]
  | none =>
    cases hd : g.addDependency child parents with
    | ok g' => simp only [declare, hd]
    | error e =>
      obtain ⟨id, hid, -⟩ := (addDependency_eq_error_iff hg).mp hd
      rw [hf] at hid
      cases hid

end InPlace

/-! ## Any calls -/

theorem Holds.declare {g : Graph} {ts : List Task} {es : List (String × String)}
    (h : g.Holds ts es) (d : Declaration) :
    (g.declare d).Holds (ts ++ d.task?.toList) (es ++ d.pairs g) := by
  cases d with
  | task t =>
    rw [Declaration.pairs, List.append_nil]
    exact h.addTask t
  | dependency child parents =>
    rw [Declaration.task?, Option.toList_none, List.append_nil]
    cases hd : g.addDependency child parents with
    | error e =>
      simp only [Graph.declare, Declaration.pairs, hd, List.append_nil]
      exact h
    | ok g' =>
      have hknown := known_of_addDependency h.wellFormed hd
      have hc := hknown child List.mem_cons_self
      have hps : ∀ p ∈ parents, p ∈ g.ids := fun p hp => hknown p (List.mem_cons_of_mem child hp)
      have heq := addDependency_eq h.wellFormed (d := ⟨child, parents⟩) hc hps
      obtain rfl := Except.ok.inj (hd.symm.trans heq)
      simp only [Graph.declare, Declaration.pairs, hd]
      refine h.linkPairs fun e he => ?_
      obtain ⟨p, hp, rfl⟩ := List.mem_map.mp he
      exact ⟨hps p hp, hc⟩

theorem Holds.declareAll {g : Graph} {ts : List Task} {es : List (String × String)}
    (h : g.Holds ts es) (ds : List Declaration) :
    (ds.foldl Graph.declare g).Holds (ts ++ ds.filterMap (·.task?)) (es ++ acceptedPairs g ds) := by
  induction ds generalizing g ts es with
  | nil => simpa [acceptedPairs] using h
  | cons d ds ih =>
    have hrest := ih (h.declare d)
    rw [List.append_assoc, List.append_assoc] at hrest
    rw [acceptedPairs, List.filterMap_cons]
    cases hd : d.task? with
    | none => rwa [hd] at hrest
    | some t => rwa [hd] at hrest

theorem WellFormed.key?_iff_getElem? {g : Graph} (hg : g.WellFormed) {id : String} {k : TaskKey} :
    g.key? id = some k ↔ g.ids[k]? = some id := by
  rw [hg.key?_eq_some_iff, ids, List.getElem?_map, Array.getElem?_toList]
  by_cases hk : k < g.size
  · obtain ⟨n, hn⟩ := exists_node hk
    simp [hk, hn, id_of_getElem? hn]
  · simp [hk, Array.getElem?_eq_none (not_lt.mp hk)]

/-- Whatever calls are made, the graph has the first task of each id, at the place that the id has
among all ids in order of insertion, and nothing was derived for it. Its edges are the pairs that
the accepted dependencies list, told alike by parents and children, once each and in order of first
declaration, and just the tasks without parents are ready. A dependency is refused for the first
of its ids that is unknown, the child's before the parents', and leaves the graph as it was. -/
theorem calls_determine_graph (ds : List Declaration) :
    let g := ofDeclarations ds
    let tasks := ds.filterMap (·.task?)
    let pairs := acceptedPairs empty ds
    (g.ids.Nodup ∧ g.ids = (tasks.map (·.id)).eraseDups ∧
      (∀ id k, g.key? id = some k ↔ g.ids[k]? = some id) ∧
      (∀ id, g.key? id = none ↔ id ∉ tasks.map (·.id)) ∧
      ∀ n ∈ g.nodes, tasks.find? (·.id = n.task.id) = some n.task ∧
        n.level = none ∧ n.descendants = .empty) ∧
    ((∀ p c, c ∈ g.children p ↔ p ∈ g.parents c) ∧
      (∀ k, (g.children k).Nodup ∧ (g.parents k).Nodup) ∧
      (∀ x y, (x, y) ∈ pairs ↔
        ∃ p c, g.key? x = some p ∧ g.key? y = some c ∧ c ∈ g.children p) ∧
      ∀ k < g.size, (g.parents k).map g.id = (parentsIn pairs (g.id k)).eraseDups ∧
        (g.children k).map g.id = (childrenIn pairs (g.id k)).eraseDups) ∧
    (∀ n ∈ g.nodes, n.ready = true ↔ n.parents = []) ∧
    ∀ child parents,
      (∀ e, g.addDependency child parents = .error e ↔
        ∃ id, (child :: parents).find? (· ∉ g.ids) = some id ∧ e = .unknownTask id) ∧
      (InPlace.addDependency child parents).run.run g =
        match (child :: parents).find? (· ∉ g.ids) with
        | some id => (.error (.unknownTask id), g)
        | none => (.ok (), g.declare (.dependency child parents)) := by
  intro g tasks pairs
  have h : g.Holds tasks pairs := Holds.empty.declareAll ds
  have hw := h.wellFormed
  have hu : g.Underived := underived_ofDeclarations ds
  refine ⟨⟨hw.ids_nodup, h.ids, fun _ _ => hw.key?_iff_getElem?, fun id => ?_, fun n hn => ?_⟩,
    ⟨hw.mirror, fun k => ⟨hw.children_nodup k, hw.parents_nodup k⟩, fun x y => h.mem_pairs_iff,
      fun k hk => ⟨h.parents k hk, h.children k hk⟩⟩,
    hw.ready_iff, fun child parents => ⟨fun e => addDependency_eq_error_iff hw,
      InPlace.run_addDependency_of_find hw child parents⟩⟩
  · rw [← h.mem_ids_iff]
    exact hw.key?_eq_none_iff
  · exact ⟨h.first n hn, hu n hn⟩

end Graph

end Makespan
