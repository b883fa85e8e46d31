import Makespan.Policy
import Makespan.Text.Column
import Makespan.Error

/-! The table of a sweep has a row for each workflow and a column for each policy. -/

namespace Makespan.Sweep

/-- What came out of one workflow under one policy. -/
inductive Cell where
  | completed (makespan : Time) (executed : Nat)
  | failed (reason : String)
  deriving DecidableEq

namespace Cell

def makespan? : Cell → Option Time
  | completed makespan _ => some makespan
  | failed _ => none

def isFailed : Cell → Bool
  | completed _ _ => false
  | failed _ => true

/-- The makespan, or -1 in its place. -/
def text : Cell → String
  | completed makespan _ => makespan.fixed
  | failed _ => "-1"

end Cell

structure Row where
  label : String
  path : String
  /-- One cell for each policy, in column order. -/
  cells : List Cell
  deriving DecidableEq

structure Table where
  policies : List Policy
  rows : List Row
  deriving DecidableEq

namespace Table

/-- The first row of that label, in the first column of that policy. -/
def cell? (t : Table) (label : String) (policy : Policy) : Option Cell := do
  let column ← t.policies.findIdx? (· = policy)
  let row ← t.rows.find? (·.label = label)
  row.cells[column]?

def failures (t : Table) : Nat :=
  (t.rows.flatMap (·.cells)).countP (·.isFailed)

/-- A line with a wide first column. -/
def line (first : String) (cells : List String) : String :=
  Text.column 30 first ++ String.join (cells.map fun c => "\t" ++ Text.column 10 c) ++ "\n"

/-- The rule is as wide as the columns together would be with one blank between them, and at least
one policy's column. -/
def rule (t : Table) : String :=
  String.ofList (List.replicate (30 + 11 * max t.policies.length 1 + 8) '=') ++ "\n"

def render (t : Table) : String :=
  line "workflow/policy" (t.policies.map Policy.name) ++ t.rule ++
    String.join (t.rows.map fun r => line r.label (r.cells.map Cell.text))

end Table

end Makespan.Sweep
