import Makespan.Graph.Descendants
import Makespan.Graph.Levels
import Makespan.Policy

/-! Preprocessing: once all tasks and edges are there, the roots and tails are collected and the
attributes that a policy sorts by are derived. -/

namespace Makespan.Graph

def findRoots (g : Graph) : List TaskKey :=
  (List.range g.size).filter fun k => (g.parents k).isEmpty

def findTails (g : Graph) : List TaskKey :=
  (List.range g.size).filter fun k => (g.children k).isEmpty

def deriveLevels (g : Graph) : Graph :=
  let levels := (g.levelPass g.roots).levels
  { g with nodes := g.nodes.mapIdx fun k n => { n with level := levels.getD k none } }

def deriveDescendants (g : Graph) : Graph :=
  let sets := (g.descendantPass g.tails).sets
  { g with nodes := g.nodes.mapIdx fun k n => { n with descendants := sets.getD k .empty } }

/-- Marks the graph as preprocessed, with its roots and tails. -/
def bounded (g : Graph) : Graph :=
  { g with roots := g.findRoots, tails := g.findTails, preprocessed := true }

/-- A graph is preprocessed once. -/
def preprocess (g : Graph) (attributes : Attributes) : Except Error Graph :=
  if g.preprocessed then .error .alreadyPreprocessed
  else
    let g := g.bounded
    let g := if attributes.levels then g.deriveLevels else g
    .ok (if attributes.descendants then g.deriveDescendants else g)

end Makespan.Graph
