import Makespan.Error

/-! Workers of fixed speed, each holding at most one task at a time. -/

namespace Makespan

/-- `count` workers of one speed. -/
structure Tier where
  /-- Instructions per simulated second. -/
  speed : Binary64
  count : Nat
  deriving DecidableEq

inductive WorkerStatus where
  /-- Asked for, and not answered yet. -/
  | requested
  /-- Created, and free to hold a task. -/
  | available
  /-- Not created, and never used. -/
  | failed
  deriving DecidableEq

def WorkerStatus.name : WorkerStatus → String
  | requested => "Requested"
  | available => "Available"
  | failed => "Failed"

structure Worker where
  id : WorkerId
  speed : Binary64
  status : WorkerStatus := .requested
  running : Option TaskKey := none
  deriving DecidableEq

namespace Worker

def isIdle (w : Worker) : Bool := w.status = .available && w.running.isNone

/-- The time that a worker takes for so many instructions. -/
def executionTime (w : Worker) (length : Nat) : Time := .ofNat length / w.speed

/-- Faster workers come first, equally fast ones by id. -/
def precedes (v w : Worker) : Bool :=
  w.speed.rank < v.speed.rank || (v.speed.rank = w.speed.rank && v.id ≤ w.id)

end Worker

structure Pool where
  /-- Each worker stands at the place that its id names. -/
  workers : Array Worker := #[]

namespace Pool

instance : Inhabited Pool := ⟨{}⟩

/-- The workers of all tiers, numbered from 0 in tier order. -/
def ofTiers (tiers : List Tier) : Pool :=
  let speeds := (tiers.flatMap fun t => List.replicate t.count t.speed).toArray
  ⟨speeds.mapIdx fun id speed => { id, speed }⟩

def size (p : Pool) : Nat := p.workers.size

def worker? (p : Pool) (id : WorkerId) : Option Worker := p.workers[id]?

/-- How many workers were created. -/
def usable (p : Pool) : Nat := p.workers.countP fun w => w.status = .available

/-- How many workers hold a task. -/
def busy (p : Pool) : Nat := p.workers.countP fun w => w.running.isSome

/-- The idle workers, fastest first. -/
def idle (p : Pool) : List WorkerId :=
  ((p.workers.toList.filter (·.isIdle)).mergeSort Worker.precedes).map (·.id)

def worker (p : Pool) (id : WorkerId) : Except Error Worker :=
  match p.worker? id with
  | some w => .ok w
  | none => .error (.unknownWorker id)

def put (p : Pool) (w : Worker) (id : WorkerId) : Pool :=
  ⟨p.workers.setIfInBounds id w⟩

/-- Records the answer to a creation request. -/
def acknowledge (p : Pool) (id : WorkerId) (created : Bool) : Except Error Pool := do
  let w ← p.worker id
  return p.put { w with status := if created then .available else .failed } id

/-- Binds a task to an idle worker. -/
def claim (p : Pool) (id : WorkerId) (task : TaskKey) : Except Error Pool := do
  let w ← p.worker id
  if w.isIdle then return p.put { w with running := some task } id
  else throw (.workerNotIdle id w.status.name w.running)

/-- Frees a worker and gives the task that it held. -/
def release (p : Pool) (id : WorkerId) : Except Error (Pool × TaskKey) := do
  let w ← p.worker id
  match w.running with
  | some task => return (p.put { w with running := none } id, task)
  | none => throw (.nothingHeld id)

end Pool

end Makespan
