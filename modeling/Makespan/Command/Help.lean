import Makespan.Command.Arguments
import Makespan.Text.Column

/-! The help texts: a short one with a line for each option, and a long one with paragraphs. -/

namespace Makespan.Command.Help

def programName : String := "dagsim"

def versionLine : String := programName ++ " 0.1.0\n"

def usage : String := "Usage: " ++ programName ++ " [OPTIONS] [PATH]..."

/-- An entry of the help. Its head stands before the short text and above the long one. -/
structure Entry where
  head : String
  brief : String
  /-- The paragraphs of the long text. -/
  paragraphs : List String := [brief]
  remark? : Option String := none
  /-- The values to choose from, each with its meaning if that has to be said. -/
  choices : List (String × Option String) := []

def about : String :=
  "Simulate workflow DAGs on a worker pool and compare scheduling policies."

def paths : Entry :=
  { head := "  [PATH]..."
    brief := "Workflow files, or directories searched recursively for `*.toml`"
    remark? := some "[default: workflows]" }

def meaning : Policy → String
  | .shortestFirst => "Shortest runtime first"
  | .levelBased => "Level based: shallower tasks first"
  | .subsequentTasks => "Subsequent-task based: tasks unblocking the most work first"

def options : List Entry :=
  [{ head := "      --config <PATH>"
     brief := "Simulation config (TOML)"
     paragraphs :=
      ["Simulation config (TOML).",
       "Default: `Dagsim.toml` in the current directory if it exists, otherwise built-in defaults."] },
   { head := "      --policy <POLICY>"
     brief := "Only run these policies (repeatable). Overrides `[simulation].policies`"
     choices := Policy.all.map fun p => (p.keyword, some (meaning p)) },
   { head := "      --log-level <LEVEL>"
     brief := "Logging level (error, warn, info, debug, trace)"
     paragraphs :=
      ["Logging level (error, warn, info, debug, trace).",
       "If omitted, `DAGSIM_LOG` or a default level will be used."]
     choices := Log.Level.all.map fun l => (l.keyword, none) },
   { head := "      --dry-run"
     brief := "Load and validate workflows, print derived task attributes, run nothing" },
   { head := "  -h, --help"
     brief := "Print help (see more with '--help')"
     paragraphs := ["Print help (see a summary with '-h')"] },
   { head := "  -V, --version"
     brief := "Print version" }]

namespace Entry

def choicesRemark (e : Entry) : List String :=
  if e.choices = [] then []
  else ["[possible values: " ++ ", ".intercalate (e.choices.map (·.1)) ++ "]"]

/-- The head, widened, and the short text behind it. -/
def short (width : Nat) (e : Entry) : String :=
  Text.column (width + 2) e.head ++
    " ".intercalate (e.brief :: e.remark?.toList ++ e.choicesRemark)

/-- The margin of the long texts; it is written before the empty lines between paragraphs too. -/
def margin : String := "          "

/-- The choices whose meaning has to be said, one a line. -/
def meaningLines (e : Entry) : List String :=
  let width := (e.choices.map (·.1.length)).foldl max 0
  e.choices.filterMap fun (keyword, meaning?) =>
    meaning?.map fun m => "- " ++ Text.column (width + 2) (keyword ++ ":") ++ m

def long (e : Entry) : String :=
  let remarks := e.remark?.toList ++ if e.meaningLines = [] then e.choicesRemark else []
  let meanings :=
    if e.meaningLines = [] then ""
    else "\n\n" ++ ("\n" ++ margin).intercalate ((margin ++ "Possible values:") :: e.meaningLines)
  e.head ++ "\n" ++ margin ++
    ("\n" ++ margin ++ "\n" ++ margin).intercalate (e.paragraphs ++ remarks) ++ meanings

end Entry

def shortText : String :=
  let width := (options.map fun e => e.head.length).foldl max 0
  "\n".intercalate
    ([about, "", usage, "", "Arguments:", paths.short paths.head.length, "", "Options:"] ++
      options.map (Entry.short width)) ++ "\n"

def longText : String :=
  "\n".intercalate [about, "", usage, "", "Arguments:", paths.long, "", "Options:"] ++ "\n" ++
    "\n\n".intercalate (options.map Entry.long) ++ "\n"

def text (long : Bool) : String := if long then longText else shortText

end Makespan.Command.Help
