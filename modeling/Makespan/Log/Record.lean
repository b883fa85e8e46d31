import Makespan.Binary64.Text
import Makespan.Text.Quoted

/-! Log records as values. Whoever does something can say what is to be logged about it; a filter
decides what is shown. -/

namespace Makespan.Log

inductive Level where
  | error | warn | info | debug | trace
  deriving DecidableEq

namespace Level

/-- The levels, the gravest first. -/
def all : List Level := [error, warn, info, debug, trace]

/-- The spelling in filters and on the command line. -/
def keyword : Level → String
  | error => "error"
  | warn => "warn"
  | info => "info"
  | debug => "debug"
  | trace => "trace"

def ofKeyword? (s : String) : Option Level :=
  all.find? (·.keyword = s)

def name : Level → String
  | error => "ERROR"
  | warn => "WARN"
  | info => "INFO"
  | debug => "DEBUG"
  | trace => "TRACE"

/-- More verbose levels have higher numbers; 0 is left for silence. -/
def verbosity : Level → Nat
  | error => 1
  | warn => 2
  | info => 3
  | debug => 4
  | trace => 5

end Level

/-- The part of the program that a record comes from. -/
inductive Target where
  | program | loading | graph | scheduler | engine | broker | events | sweep
  deriving DecidableEq

def Target.name : Target → String
  | program => "dagsim"
  | loading => "dagsim::config::loader"
  | graph => "dagsim::dag::graph"
  | scheduler => "dagsim::dag::scheduler"
  | engine => "dagsim::engine"
  | broker => "dagsim::engine::broker"
  | events => "dagsim::engine::event_handlers"
  | sweep => "dagsim::sweep"

/-- What a field holds, by the way it is written. -/
inductive FieldValue where
  /-- A text as it is. -/
  | text (s : String)
  | quoted (s : String)
  | count (n : Nat)
  | number (x : Binary64)
  | flag (b : Bool)
  | texts (items : List String)
  | quotedTexts (items : List String)
  deriving DecidableEq

def FieldValue.written : FieldValue → String
  | text s => s
  | quoted s => Text.quoted s
  | count n => toString n
  | number x => x.literal
  | flag b => if b then "true" else "false"
  | texts items => Text.bracketed items
  | quotedTexts items => Text.bracketed (items.map Text.quoted)

structure Field where
  name : String
  value : FieldValue
  deriving DecidableEq

namespace Field

def text (name value : String) : Field := ⟨name, .text value⟩

def quoted (name value : String) : Field := ⟨name, .quoted value⟩

def count (name : String) (value : Nat) : Field := ⟨name, .count value⟩

def number (name : String) (value : Binary64) : Field := ⟨name, .number value⟩

def flag (name : String) (value : Bool) : Field := ⟨name, .flag value⟩

def texts (name : String) (items : List String) : Field := ⟨name, .texts items⟩

def quotedTexts (name : String) (items : List String) : Field := ⟨name, .quotedTexts items⟩

def line (f : Field) : String := " " ++ f.name ++ "=" ++ f.value.written

end Field

/-- The run that a record belongs to, by the workflow's name and the policy's. -/
structure RunName where
  workflow : String
  policy : String
  deriving DecidableEq

namespace RunName

/-- What the spans of runs are called, where they come from, and at which level. -/
def span : String := "run"

def target : Target := .engine

def level : Level := .info

/-- The fields of the span of a run. -/
def fields : List (String × (RunName → String)) :=
  [("workflow", workflow), ("policy", policy)]

def line (r : RunName) : String :=
  span ++ "\x7b" ++ " ".intercalate (fields.map fun (name, value) => name ++ "=" ++ value r) ++
    "\x7d: "

end RunName

structure Record where
  level : Level
  target : Target
  text : String
  fields : List Field := []
  run? : Option RunName := none
  deriving DecidableEq

/-- The names of the fields of a record; its text is one of them. -/
def Record.fieldNames (r : Record) : List String := "message" :: r.fields.map (·.name)

/-- The line of a record, without a time stamp. -/
def Record.line (r : Record) (withRun : Bool) : String :=
  r.level.name ++ " " ++ (if withRun then r.run?.elim "" (·.line) else "") ++
    r.target.name ++ ": " ++ r.text ++
    String.join (r.fields.map Field.line)

/-- Records in the order in which they are written. -/
abbrev Records := List Record

/-- The same records as part of a run. -/
def Records.within (records : Records) (run : RunName) : Records :=
  records.map fun r => { r with run? := some run }

end Makespan.Log
