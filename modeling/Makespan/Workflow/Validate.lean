import Makespan.Workflow.Basic
import Makespan.Workflow.CycleSearch

/-! Which workflow descriptions are accepted. The checks run in a fixed order and the first fault
is reported: the jobs one by one, then the dependencies one by one, then cycles. -/

namespace Makespan.Workflow

/-- Checks the jobs that follow those with the ids `seen`. -/
def checkJobs (seen : List String) : List Job → Except Fault Unit
  | [] => .ok ()
  | j :: rest =>
    if j.id ∈ seen then .error (.duplicateJob j.id)
    else if !j.runtime.isFinite || j.runtime.lt 0 then .error (.invalidRuntime j.id j.runtime)
    else checkJobs (j.id :: seen) rest

def checkParents (ids : List String) (child : String) : List String → Except Fault Unit
  | [] => .ok ()
  | p :: rest =>
    if p ∉ ids then .error (.unknownParent child p)
    else if p = child then .error (.ownParent child)
    else checkParents ids child rest

def checkDependencies (ids : List String) : List Dependency → Except Fault Unit
  | [] => .ok ()
  | d :: rest => do
    if d.child ∉ ids then throw (.unknownJob d.child)
    checkParents ids d.child d.parents
    checkDependencies ids rest

def digraph (w : Workflow) : Digraph := .ofPairs w.ids w.pairs

def checkCycles (w : Workflow) : Except Fault Unit :=
  match w.digraph.onCycle? with
  | some id => .error (.cycle id)
  | none => .ok ()

def check (w : Workflow) : Except Fault Unit := do
  if w.jobs = [] then throw .noJobs
  checkJobs [] w.jobs
  checkDependencies w.ids w.dependencies
  w.checkCycles

/-- The description itself, if there is nothing wrong with it. -/
def validate (w : Workflow) : Except Fault Workflow := do
  w.check
  return w

end Makespan.Workflow
