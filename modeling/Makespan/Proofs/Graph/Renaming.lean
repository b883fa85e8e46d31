import Makespan.Proofs.Graph.Attributes
import Makespan.Proofs.Workflow.Validated

/-! Graphs under other names. Edges, levels, descendants and ranks go by the places of tasks, and
never by their names; so all that is done to a graph is done to the renamed graph, too. -/

namespace Makespan

/-- A task under another name. What program it runs is left out. -/
def Task.rename (f : String → String) (t : Task) : Task :=
  { t with id := f t.id, space := "", name := "" }

def Node.rename (f : String → String) (n : Node) : Node := { n with task := n.task.rename f }

/-- The same graph under other names. -/
def Graph.rename (f : String → String) (g : Graph) : Graph :=
  { g with nodes := g.nodes.map (·.rename f), index := g.index.map fun e => (f e.1, e.2) }

namespace Graph

variable {f : String → String} (g : Graph)

theorem getElem?_rename (k : TaskKey) :
    (g.rename f).nodes[k]? = g.nodes[k]?.map (·.rename f) := Array.getElem?_map

theorem size_rename : (g.rename f).size = g.size := Array.size_map

theorem parents_rename : (g.rename f).parents = g.parents := by
  funext k
  rw [parents, getElem?_rename, Option.map_map]
  rfl

theorem children_rename : (g.rename f).children = g.children := by
  funext k
  rw [children, getElem?_rename, Option.map_map]
  rfl

theorem ready_rename : (g.rename f).nodes.map (·.ready) = g.nodes.map (·.ready) := by
  rw [rename, Array.map_map]
  rfl

theorem id_rename {k : TaskKey} (hk : k < g.size) : (g.rename f).id k = f (g.id k) := by
  obtain ⟨n, hn⟩ := exists_node hk
  rw [id, id, getElem?_rename, hn]
  rfl

theorem length_rename (k : TaskKey) : ((g.rename f).nodes[k]?).elim 0 (·.task.length) =
    (g.nodes[k]?).elim 0 (·.task.length) := by
  rw [getElem?_rename, Option.elim_map]
  rfl

theorem rankOf_rename (policy : Policy) (k : TaskKey) :
    policy.rankOf (g.rename f) k = policy.rankOf g k := by
  rw [Policy.rankOf, Policy.rankOf, getElem?_rename, Option.map_map]
  cases policy <;> rfl

/-! ## Putting the graph together -/

theorem rename_empty : Graph.empty.rename f = .empty := by
  rw [rename, empty, Array.map_empty]
  rfl

section Injective

variable (hf : Function.Injective f)
include hf

/-- A task is found by its new name where it was found by its old one. -/
theorem key?_rename (id : String) : (g.rename f).key? (f id) = g.key? id := by
  show (g.index.map fun e => (f e.1, e.2)).lookup (f id) = g.index.lookup id
  induction g.index with
  | nil => rfl
  | cons e index ih =>
    have he : (f id == f e.1) = (id == e.1) := Bool.eq_iff_iff.mpr (by simp [hf.eq_iff])
    rw [List.map_cons, List.lookup_cons, List.lookup_cons, ih]
    exact congrArg (fun b => match b with | true => some e.2 | false => index.lookup id) he

theorem keyFor_rename (id : String) : (g.rename f).keyFor (f id) = g.keyFor id := by
  rw [keyFor, keyFor, g.key?_rename hf]

theorem addTask_rename (t : Task) :
    (g.addTask t).1.rename f = ((g.rename f).addTask (t.rename f)).1 := by
  have hkey : (g.rename f).key? (t.rename f).id = g.key? t.id := g.key?_rename hf t.id
  unfold addTask
  rw [hkey]
  cases g.key? t.id with
  | some k => rfl
  | none =>
    show (g.push t).rename f = (g.rename f).push (t.rename f)
    simp only [push, rename, Array.map_push, Array.size_map, List.map_cons]
    rfl

theorem addTasks_rename (ts : List Task) :
    (g.addTasks ts).rename f = (g.rename f).addTasks (ts.map (·.rename f)) := by
  induction ts generalizing g with
  | nil => rfl
  | cons t ts ih =>
    show ((g.addTask t).1.addTasks ts).rename f =
      (((g.rename f).addTask (t.rename f)).1).addTasks (ts.map (·.rename f))
    rw [ih, g.addTask_rename hf]

end Injective

theorem link_rename (p c : TaskKey) : (g.link p c).rename f = (g.rename f).link p c := by
  unfold link
  rw [children_rename]
  split
  · rfl
  · refine congrArg (fun nodes => ({ g.rename f with nodes } : Graph))
      (Array.ext_getElem? fun k => ?_)
    simp only [rename, Array.getElem?_map, Array.getElem?_modify]
    split <;> split <;> simp [Option.map_map, Function.comp_def, Node.rename, Node.addChild,
      Node.addParent]

theorem linkPairs_rename (hf : Function.Injective f) (es : List (String × String)) :
    (g.linkPairs es).rename f = (g.rename f).linkPairs (es.map (Prod.map f f)) := by
  induction es generalizing g with
  | nil => rfl
  | cons e es ih =>
    show ((g.link (g.keyFor e.1) (g.keyFor e.2)).linkPairs es).rename f =
      ((g.rename f).link ((g.rename f).keyFor (f e.1)) ((g.rename f).keyFor (f e.2))).linkPairs _
    rw [ih, link_rename, g.keyFor_rename hf, g.keyFor_rename hf]

/-! ## What is derived -/

theorem levelPass_rename (roots : List TaskKey) :
    (g.rename f).levelPass roots = g.levelPass roots := by
  have hstart : LevelPass.start (g.rename f) roots = LevelPass.start g roots := by
    simp only [LevelPass.start, rename, Array.map_map]
    rfl
  have hstep : ∀ s : LevelPass, s.step (g.rename f) = s.step g := by
    intro s
    simp only [LevelPass.step, children_rename]
  have hrun : ∀ (n : Nat) (s : LevelPass), s.run (g.rename f) n = s.run g n := by
    intro n
    induction n with
    | zero => exact fun s => rfl
    | succ n ih =>
      intro s
      unfold LevelPass.run
      rw [hstep, ih]
  rw [levelPass, levelPass, hstart, size_rename, hrun]

theorem descendantPass_rename (tails : List TaskKey) :
    (g.rename f).descendantPass tails = g.descendantPass tails := by
  have hstart : DescendantPass.start (g.rename f) tails = DescendantPass.start g tails := by
    simp only [DescendantPass.start, rename, Array.map_map]
    rfl
  rw [descendantPass, descendantPass, hstart, size_rename]
  exact DescendantPass.run_congr (fun k => by rw [parents_rename]) _ _

theorem bounded_rename : g.bounded.rename f = (g.rename f).bounded := by
  have hroots : (g.rename f).findRoots = g.findRoots := by
    rw [findRoots, findRoots, size_rename, parents_rename]
  have htails : (g.rename f).findTails = g.findTails := by
    rw [findTails, findTails, size_rename, children_rename]
  rw [bounded, bounded, hroots, htails]
  rfl

theorem deriveLevels_rename : g.deriveLevels.rename f = (g.rename f).deriveLevels := by
  have hroots : (g.rename f).roots = g.roots := rfl
  unfold deriveLevels
  rw [hroots, levelPass_rename]
  refine congrArg (fun nodes => ({ g.rename f with nodes } : Graph))
    (Array.ext_getElem? fun k => ?_)
  simp [rename, Option.map_map, Function.comp_def, Node.rename]

theorem deriveDescendants_rename :
    g.deriveDescendants.rename f = (g.rename f).deriveDescendants := by
  have htails : (g.rename f).tails = g.tails := rfl
  unfold deriveDescendants
  rw [htails, descendantPass_rename]
  refine congrArg (fun nodes => ({ g.rename f with nodes } : Graph))
    (Array.ext_getElem? fun k => ?_)
  simp [rename, Option.map_map, Function.comp_def, Node.rename]

theorem preprocess_rename (attributes : Attributes) :
    (g.rename f).preprocess attributes = (g.preprocess attributes).map (·.rename f) := by
  have hpre : (g.rename f).preprocessed = g.preprocessed := rfl
  unfold preprocess
  rw [hpre]
  split
  · rfl
  · simp only [Except.map, apply_ite (rename f), deriveDescendants_rename, deriveLevels_rename,
      bounded_rename]

end Graph

end Makespan
