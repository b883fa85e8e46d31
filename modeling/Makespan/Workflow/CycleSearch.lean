/-! A search for a cycle among named nodes. A depth-first search gives the order in which nodes are
finished; read backwards, it has every node behind its predecessors if there is no cycle. Otherwise
the first node with predecessors still to come names the last of them, which lies on a cycle. -/

namespace Makespan

/-- Edges lead from parents to children and are listed without repeats. -/
structure Digraph where
  nodes : List String
  edges : List (String × String)

namespace Digraph

/-- The graph of these pairs; a repeated pair is ignored. -/
def ofPairs (nodes : List String) (pairs : List (String × String)) : Digraph :=
  ⟨nodes, pairs.foldl (fun edges e => if e ∈ edges then edges else edges ++ [e]) []⟩

def successors (g : Digraph) (x : String) : List String :=
  g.edges.filterMap fun e => if e.1 = x then some e.2 else none

def predecessors (g : Digraph) (x : String) : List String :=
  g.edges.filterMap fun e => if e.2 = x then some e.1 else none

/-- A depth-first search that has come this far. -/
structure Search where
  discovered : List String := []
  /-- The finished nodes, the last one first. -/
  finished : List String := []

/-- Works off a stack. A node that is met for the first time is discovered and stays below its
successors that are not; met again, it is finished. -/
def visit (g : Digraph) : Nat → List String → Search → Search
  | 0, _, s => s
  | _ + 1, [], s => s
  | n + 1, x :: stack, s =>
    if x ∉ s.discovered then
      let discovered := x :: s.discovered
      let next := (g.successors x).filter (· ∉ discovered)
      g.visit n (next.reverse ++ x :: stack) { s with discovered }
    else if x ∈ s.finished then g.visit n stack s
    else g.visit n stack { s with finished := x :: s.finished }

/-- Enough for any one search: a node is discovered once, and what is put on the stack is the start
or the end of an edge. -/
def visitBound (g : Digraph) : Nat := 2 * g.nodes.length + g.edges.length + 2

/-- All nodes, the last finished one first. -/
def finishingOrder (g : Digraph) : List String :=
  let s := g.nodes.foldl
    (fun s x => if x ∈ s.discovered then s else g.visit g.visitBound [x] s) ({} : Search)
  s.finished

/-- Passes the nodes in order, up to the first one with predecessors that were not passed. -/
def unpassed? (g : Digraph) (passed : List String) : List String → Option String
  | [] => none
  | x :: rest =>
    let passed := x :: passed
    match ((g.predecessors x).filter (· ∉ passed)).getLast? with
    | some p => some p
    | none => g.unpassed? passed rest

/-- A node on a cycle, if there is a cycle. -/
def onCycle? (g : Digraph) : Option String :=
  g.unpassed? [] g.finishingOrder

end Digraph

end Makespan
