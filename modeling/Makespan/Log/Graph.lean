import Makespan.Graph.Preprocess
import Makespan.Log.Record

/-! What is logged while a task graph is built and preprocessed, told from the graph before. -/

namespace Makespan.Graph

open Log

def addTaskLog (g : Graph) (t : Task) : Records :=
  if (g.key? t.id).isSome then
    [⟨.debug, .graph, "duplicate task id; keeping the first definition", [.text "task" t.id], none⟩]
  else []

def linkLog (g : Graph) (child : TaskKey) : List TaskKey → Records
  | [] => []
  | p :: rest =>
    let skipped : Records :=
      if child ∈ g.children p then
        [⟨.debug, .graph, "edge already present; skipping",
          [.text "parent" (g.id p), .text "child" (g.id child)], none⟩]
      else []
    skipped ++ (g.link p child).linkLog child rest

def addDependencyLog (g : Graph) (child : String) (parents : List String) : Records :=
  match g.keyOf child, parents.mapM g.keyOf with
  | .ok c, .ok ps => g.linkLog c ps
  | _, _ => []

def preprocessLog (g : Graph) (attributes : Attributes) : Records :=
  if g.preprocessed then []
  else
    let g := g.bounded
    let unleveled := g.size - (g.levelPass g.roots).visited
    let unfinished := g.size - (g.descendantPass g.tails).visited
    let levels : Records :=
      if attributes.levels && unleveled ≠ 0 then
        [⟨.warn, .graph, "some tasks were never leveled; the graph is not acyclic",
          [.count "unleveled" unleveled], none⟩]
      else []
    let descendants : Records :=
      if attributes.descendants && unfinished ≠ 0 then
        [⟨.warn, .graph, "some descendant sets are incomplete; the graph is not acyclic",
          [.count "unfinished" unfinished], none⟩]
      else []
    levels ++ descendants ++
      [⟨.info, .graph, "workflow preprocessed",
        [.count "tasks" g.size, .count "roots" g.roots.length, .count "tails" g.tails.length,
          .flag "levels" attributes.levels, .flag "descendants" attributes.descendants], none⟩]

end Makespan.Graph
