import Makespan.Log.Directive

/-! Filters choose which log records are shown. Of the directives that speak of a record without
regard to spans, the most specific one decides; within a span, whatever the directives for that span
ask for is shown as well. -/

namespace Makespan.Log

structure Filter where
  directives : List Directive

namespace Filter

/-- The filter of one level for every target. -/
def ofLevel (l : Level) : Filter := ⟨[⟨{}, l.verbosity⟩]⟩

def standard : Filter := ofLevel .info

/-- Reads a list of directives; `none` if one of them is malformed. -/
def parse? (s : String) : Option Filter :=
  ((s.splitOn ",").filter (· ≠ "")).mapM Directive.parse? |>.map Filter.mk

/-- A level asked for comes first, then the directives of the environment. Blank or malformed
directives count as none, and with none of both the filter is the standard one. -/
def choose (level? : Option Level) (environment? : Option String) : Filter :=
  match level? with
  | some l => ofLevel l
  | none =>
    let text := Text.trim (environment?.getD "")
    if text = "" then standard else (parse? text).getD standard

/-- The highest verbosity that any directive asks for. What a field holds is not known beforehand,
so with a directive that wants a value it is the highest of all. -/
def maxVerbosity (f : Filter) : Nat :=
  if f.directives.any (·.scope.wantsValue) then Level.trace.verbosity
  else (f.directives.map (·.verbosity)).foldl max 0

/-- What the static directives that cover something say of it: the heaviest one decides, and of two
that weigh the same the later one. -/
def staticVerbosity (f : Filter) (covers : Scope → Bool) : Nat :=
  let deciding := (f.directives.filter fun d => d.scope.isStatic && covers d.scope).foldl
    (fun best d => match best with
      | some b => if b.scope.noHeavier d.scope then some d else best
      | none => some d)
    (none : Option Directive)
  deciding.elim 0 (·.verbosity)

/-- The directives for the spans of runs. -/
def forRuns (f : Filter) : List Directive :=
  (Directive.latest f.directives).filter fun d => d.scope.isDynamic && d.scope.coversRuns

/-- Whether the spans of runs are made: at all if their level is asked for by any directive, and
then by a directive for them or by the static ones. -/
def showsRuns (f : Filter) : Bool :=
  RunName.level.verbosity ≤ f.maxVerbosity &&
    (f.forRuns ≠ [] ||
      RunName.level.verbosity ≤ f.staticVerbosity (·.coversTarget RunName.target.name))

/-- What is shown of all records within a run. -/
def runVerbosity (f : Filter) (run : RunName) : Nat :=
  ((f.forRuns.filter (·.scope.accepts run)).map (·.verbosity)).foldl max 0

def shows (f : Filter) (r : Record) : Bool :=
  r.level.verbosity ≤ f.staticVerbosity (·.coversRecord r) ||
    f.showsRuns && r.run?.any fun run => r.level.verbosity ≤ f.runVerbosity run

/-- The lines that a filter shows. -/
def lines (f : Filter) (records : Records) : List String :=
  let withRuns := f.showsRuns
  (records.filter f.shows).map (·.line withRuns)

end Filter

end Makespan.Log
