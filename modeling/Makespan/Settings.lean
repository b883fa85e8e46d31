import Makespan.Policy
import Makespan.Pool

/-! Simulation settings: what is the same for every workflow of a sweep. -/

namespace Makespan

structure Settings where
  /-- Simulated time between two scheduling cycles. -/
  cycleDelay : Binary64 := 600
  /-- Instructions per second of a job's runtime. -/
  lengthScale : Binary64 := 1000
  /-- The policies of a sweep, in column order. -/
  policies : List Policy := Policy.all
  tiers : List Tier := [⟨800, 4⟩, ⟨1200, 4⟩, ⟨1600, 4⟩]
  deriving DecidableEq

namespace Settings

instance : Inhabited Settings := ⟨{}⟩

/-- How many workers a run asks for. -/
def workerCount (s : Settings) : Nat := s.tiers.foldl (fun n t => n + t.count) 0

/-- Why settings are refused. Tiers are counted from 0. -/
inductive Fault where
  | cycleDelay (got : Binary64)
  | lengthScale (got : Binary64)
  | noPolicies
  | noTiers
  | tierSpeed (tier : Nat) (got : Binary64)
  | tierCount (tier : Nat)
  deriving DecidableEq

def Fault.message (f : Fault) : String :=
  "Configuration error: " ++ reason f
where
  reason : Fault → String
    | .cycleDelay got => "[simulation].inter_cycle_delay must be > 0 (got " ++ got.plain ++ ")"
    | .lengthScale got => "[simulation].length_scale must be > 0 (got " ++ got.plain ++ ")"
    | .noPolicies => "[simulation].policies must name at least one policy"
    | .noTiers => "config must contain at least one [[worker_tier]]"
    | .tierSpeed tier got =>
      "worker_tier #" ++ toString tier ++ ": mips must be > 0 (got " ++ got.plain ++ ")"
    | .tierCount tier => "worker_tier #" ++ toString tier ++ ": count must be >= 1 (got 0)"

def isPositive (x : Binary64) : Bool := x.isFinite && (0 : Binary64).lt x

/-- Checks the tiers from number `tier` on. -/
def checkTiers (tier : Nat) : List Tier → Except Fault Unit
  | [] => .ok ()
  | t :: rest =>
    if !isPositive t.speed then .error (.tierSpeed tier t.speed)
    else if t.count = 0 then .error (.tierCount tier)
    else checkTiers (tier + 1) rest

/-- The first fault is reported. -/
def check (s : Settings) : Except Fault Unit := do
  if !isPositive s.cycleDelay then throw (.cycleDelay s.cycleDelay)
  if !isPositive s.lengthScale then throw (.lengthScale s.lengthScale)
  if s.policies = [] then throw .noPolicies
  if s.tiers = [] then throw .noTiers
  checkTiers 0 s.tiers

/-- The settings themselves, if there is nothing wrong with them. -/
def validate (s : Settings) : Except Fault Settings := do
  s.check
  return s

end Settings

end Makespan
