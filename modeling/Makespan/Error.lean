import Makespan.Binary64.Text

/-! Everything that can go wrong while a task graph is built, scheduled and run, with the wording
of each. -/

namespace Makespan

/-- Simulated seconds. -/
abbrev Time := Binary64

/-- A task's place in its graph, counted from 0 in order of first declaration. -/
abbrev TaskKey := Nat

/-- A worker's place in its pool, counted from 0 in tier order. -/
abbrev WorkerId := Nat

/-- The life of a broker, in order. -/
inductive Phase where
  | init | provisioning | scheduling | terminated
  deriving DecidableEq

def Phase.name : Phase → String
  | init => "Init"
  | provisioning => "Provisioning"
  | scheduling => "Scheduling"
  | terminated => "Terminated"

/-- What a broker may be asked to do. -/
inductive Request where
  | start | workerCreated | nextCycle | taskFinished | endOfSimulation | report
  deriving DecidableEq

def Request.name : Request → String
  | start => "Start"
  | workerCreated => "WorkerCreated"
  | nextCycle => "NextCycle"
  | taskFinished => "TaskFinished"
  | endOfSimulation => "EndOfSimulation"
  | report => "Report"

inductive Error where
  | unknownTask (id : String)
  | alreadyPreprocessed
  | notPreprocessed
  | alreadyExecuted (id : String)
  | invalidTransition (phase : Phase) (request : Request)
  | noUsableWorkers
  | stalled (time : Time) (remaining : Nat)
  | unknownWorker (worker : WorkerId)
  /-- A task was to be bound to a worker that cannot take it. -/
  | workerNotIdle (worker : WorkerId) (status : String) (running : Option TaskKey)
  | nothingHeld (worker : WorkerId)
  | otherTaskHeld (worker : WorkerId) (finished held : TaskKey)
  /-- Whatever was to create the workers broke down. This is no error that a call gives, and it has
  no wording of its own: who waits for the run words it, see `Host.breakdown`. -/
  | provisioningCrashed
  deriving DecidableEq

namespace Error

def taskKeyText (key : TaskKey) : String := "TaskKey(" ++ toString key ++ ")"

def heldText : Option TaskKey → String
  | none => "None"
  | some key => "Some(" ++ taskKeyText key ++ ")"

def message : Error → String
  | unknownTask id => "Unknown task: " ++ id
  | alreadyPreprocessed => "Workflow graph has already been preprocessed"
  | notPreprocessed => "Workflow graph must be preprocessed before scheduling"
  | alreadyExecuted id => "Task already executed: " ++ id
  | invalidTransition phase request =>
    "Event " ++ request.name ++ " is not valid in broker state " ++ phase.name
  | noUsableWorkers => "No worker was created successfully; nothing can execute"
  | stalled time remaining =>
    "Simulation stalled at t=" ++ time.plain ++ " with " ++ toString remaining ++
      " task(s) never executed"
  | unknownWorker worker => "unknown worker #" ++ toString worker
  | workerNotIdle worker status running =>
    "worker #" ++ toString worker ++ " is not idle (status " ++ status ++ ", running " ++
      heldText running ++ ")"
  | nothingHeld worker => "worker #" ++ toString worker ++ " finished without a task"
  | otherTaskHeld worker finished held =>
    "worker #" ++ toString worker ++ " finished " ++ taskKeyText finished ++
      " but was holding " ++ taskKeyText held
  | provisioningCrashed => ""

end Error

end Makespan
