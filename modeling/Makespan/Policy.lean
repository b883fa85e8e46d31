import Makespan.Text.Blank
import Makespan.Text.Lowercase

/-! Scheduling policies: their names, and what each needs to know about a task. -/

namespace Makespan

/-- The order in which ready tasks are dispatched. -/
inductive Policy where
  /-- Shortest runtime first. -/
  | shortestFirst
  /-- Shallower tasks first. -/
  | levelBased
  /-- Tasks that hold up the most other tasks first. -/
  | subsequentTasks
  deriving DecidableEq

/-- What preprocessing derives for each task. -/
structure Attributes where
  levels : Bool
  descendants : Bool
  deriving DecidableEq

def Attributes.all : Attributes := ⟨true, true⟩

namespace Policy

/-- Every policy, in the order in which a sweep runs them unless told otherwise. -/
def all : List Policy := [shortestFirst, levelBased, subsequentTasks]

def name : Policy → String
  | shortestFirst => "SRF"
  | levelBased => "LB"
  | subsequentTasks => "STB"

/-- The spelling in settings files and on the command line. -/
def keyword : Policy → String
  | shortestFirst => "srf"
  | levelBased => "lb"
  | subsequentTasks => "stb"

def ofKeyword? (s : String) : Option Policy :=
  all.find? (·.keyword = s)

/-- The spelling in lists that a log line shows. -/
def variant : Policy → String
  | shortestFirst => "Srf"
  | levelBased => "Lb"
  | subsequentTasks => "Stb"

def required : Policy → Attributes
  | shortestFirst => ⟨false, false⟩
  | levelBased => ⟨true, false⟩
  | subsequentTasks => ⟨false, true⟩

/-- A text that names no policy, without the blanks around it and in lower case. -/
structure Unknown where
  text : String
  deriving DecidableEq

def Unknown.message (e : Unknown) : String :=
  "invalid scheduling policy: " ++ e.text ++ " (expected \"srf\", \"lb\" or \"stb\")"

/-- Reads a policy's keyword or one of its longer names, in any case. -/
def parse (s : String) : Except Unknown Policy :=
  let text := Text.lowercase (Text.trim s)
  if text ∈ ["srf", "sjf", "shortest-runtime-first"] then .ok shortestFirst
  else if text ∈ ["lb", "level", "level-based"] then .ok levelBased
  else if text ∈ ["stb", "subsequent", "subsequent-task-based"] then .ok subsequentTasks
  else .error ⟨text⟩

theorem ofKeyword?_keyword (p : Policy) : ofKeyword? p.keyword = some p := by
  cases p <;> decide

end Policy

end Makespan
