import Makespan.Command.Help
import Makespan.Command.Run
import Makespan.Log.Filter

/-! The program as a whole: from its arguments and its environment to everything that it writes. -/

namespace Makespan.Command

/-- The environment variable with the directives of the log filter. -/
def filterVariable : String := "DAGSIM_LOG"

/-- What a program leaves when it ends. -/
structure Exit where
  code : Nat
  output : String := ""
  /-- The log lines that its filter shows. -/
  log : List String := []
  error? : Option String := none

def Stop.message : Stop → String
  | unknownArgument argument => "unexpected argument '" ++ argument ++ "'"
  | missingValue option => "a value is required for '--" ++ option.spelling ++ "'"
  | invalidValue value => "invalid value '" ++ value ++ "'"
  | repeated option => "the argument '--" ++ option ++ "' cannot be used multiple times"
  | needlessValue switch => "unexpected value for '--" ++ switch.spelling ++ "'"
  | help _ => "help"
  | version => "version"

/-- How the program ends if its arguments are not executed. -/
def Stop.exit : Stop → Exit
  | help long => { code := 0, output := Help.text long }
  | version => { code := 0, output := Help.versionLine }
  | stop => { code := 2, error? := some ("error: " ++ stop.message) }

def Execution.exit (e : Execution) (filter : Log.Filter) : Exit where
  code := if e.failure?.isSome then 1 else 0
  output := e.output
  log := filter.lines e.log
  error? := e.failure?.map fun f => Help.programName ++ " error: " ++ f.message

/-- Runs the program; `none` if one of its simulations takes more than so many events. -/
def program? (events : Nat) (host : Host) (directives? : Option String) (texts : List String) :
    Option Exit :=
  match Arguments.read texts with
  | .error stop => some stop.exit
  | .ok a =>
    (a.execute? events host).map (·.exit (.choose a.logLevel? directives?))

end Makespan.Command
