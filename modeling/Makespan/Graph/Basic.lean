import Makespan.KeySet

/-! Task graphs. Tasks and edges are only ever added; each node lists both its parents and its
children, in the order in which their edges were first declared. -/

namespace Makespan

/-- A job of a workflow. -/
structure Task where
  id : String
  /-- The namespace and name of the program it runs. -/
  space : String
  name : String
  /-- Declared runtime in simulated seconds. -/
  runtime : Binary64
  /-- Simulated instructions. -/
  length : Nat

/-- A job's work length is its runtime times the length scale, toward zero. -/
def Task.new (id space name : String) (runtime scale : Binary64) : Task :=
  ⟨id, space, name, runtime, (runtime * scale).truncate⟩

structure Node where
  task : Task
  parents : List TaskKey := []
  children : List TaskKey := []
  /-- Whether the task may start at once. -/
  ready : Bool := true
  level : Option Nat := none
  descendants : KeySet := .empty

def Node.addParent (n : Node) (parent : TaskKey) : Node :=
  { n with parents := n.parents ++ [parent], ready := false }

def Node.addChild (n : Node) (child : TaskKey) : Node :=
  { n with children := n.children ++ [child] }

structure Graph where
  nodes : Array Node := #[]
  /-- The key of each task beside its id. -/
  index : List (String × TaskKey) := []
  /-- Tasks without parents; known once the graph is preprocessed. -/
  roots : List TaskKey := []
  /-- Tasks without children; known once the graph is preprocessed. -/
  tails : List TaskKey := []
  preprocessed : Bool := false

namespace Graph

def empty : Graph := {}

instance : Inhabited Graph := ⟨empty⟩

def size (g : Graph) : Nat := g.nodes.size

def parents (g : Graph) (k : TaskKey) : List TaskKey :=
  (g.nodes[k]?.map (·.parents)).getD []

def children (g : Graph) (k : TaskKey) : List TaskKey :=
  (g.nodes[k]?.map (·.children)).getD []

def id (g : Graph) (k : TaskKey) : String :=
  (g.nodes[k]?.map (·.task.id)).getD ""

def key? (g : Graph) (id : String) : Option TaskKey := g.index.lookup id

def keyOf (g : Graph) (id : String) : Except Error TaskKey :=
  match g.key? id with
  | some k => .ok k
  | none => .error (.unknownTask id)

/-- The next key is that of the new task. -/
def push (g : Graph) (t : Task) : Graph :=
  { g with nodes := g.nodes.push { task := t }, index := (t.id, g.nodes.size) :: g.index }

/-- Adds a task and gives its key; a task whose id is taken is dropped for the first one. A task
that is added is a fresh one: it has no links, no level, no descendants, and may start at once. -/
def addTask (g : Graph) (t : Task) : Graph × TaskKey :=
  match g.key? t.id with
  | some k => (g, k)
  | none => (g.push t, g.nodes.size)

/-- Adds an edge unless it is there already. -/
def link (g : Graph) (parent child : TaskKey) : Graph :=
  if child ∈ g.children parent then g
  else
    { g with
      nodes := (g.nodes.modify child (·.addParent parent)).modify parent (·.addChild child) }

/-- Makes `child` wait for every one of `parents`. All ids are looked up before any edge is added,
the child's first. -/
def addDependency (g : Graph) (child : String) (parents : List String) : Except Error Graph := do
  let c ← g.keyOf child
  let ps ← parents.mapM g.keyOf
  return ps.foldl (fun g p => g.link p c) g

/-- The ids of a task's descendants, ascending. -/
def descendantIds? (g : Graph) (id : String) : Option (List String) := do
  let node ← g.nodes[(← g.key? id)]?
  return (node.descendants.toList.map g.id).mergeSort fun a b => decide (a ≤ b)

end Graph

end Makespan
