import Makespan.Log.Record
import Makespan.Policy

/-! What a command line asks for. Arguments are read from the left; the value of an option and a run
of paths stay open until something else begins, and only then it is known whether they are right. -/

namespace Makespan.Command

structure Arguments where
  paths : List String := []
  config? : Option String := none
  policies : List Policy := []
  logLevel? : Option Log.Level := none
  dryRun : Bool := false
  deriving DecidableEq

/-- The paths of a command line without any. -/
def defaultPaths : List String := ["workflows"]

/-- The options that take a value. -/
inductive Valued where
  | config | policy | logLevel
  deriving DecidableEq

namespace Valued

def all : List Valued := [config, policy, logLevel]

def spelling : Valued → String
  | config => "config"
  | policy => "policy"
  | logLevel => "log-level"

end Valued

/-- The options without a value. -/
inductive Switch where
  | dryRun
  | help (long : Bool)
  | version
  deriving DecidableEq

namespace Switch

/-- The switches with a long spelling. -/
def all : List Switch := [dryRun, help true, version]

def spelling : Switch → String
  | dryRun => "dry-run"
  | help _ => "help"
  | version => "version"

/-- The switches of one letter. -/
def ofLetter? : Char → Option Switch
  | 'h' => some (help false)
  | 'V' => some version
  | _ => none

end Switch

/-- Why the reading of a command line ends early. -/
inductive Stop where
  | unknownArgument (argument : String)
  | missingValue (option : Valued)
  | invalidValue (value : String)
  /-- An option that may be given once is given again. -/
  | repeated (option : String)
  /-- A switch has a value. -/
  | needlessValue (switch : Switch)
  | help (long : Bool)
  | version
  deriving DecidableEq

/-- One argument, by its form. -/
inductive Token where
  /-- A path or a value. -/
  | plain (text : String)
  /-- All that follows is a path. -/
  | separator
  | valued (option : Valued) (attached? : Option String)
  | switch (switch : Switch) (attached? : Option String)
  | unknown (text : String)
  deriving DecidableEq

namespace Token

/-- The form of an argument behind two hyphens: a name, and perhaps a value behind an equals
sign. -/
def ofLong (text : String) : Token :=
  let cs := text.toList
  let name := String.ofList (cs.takeWhile (· ≠ '='))
  let attached? := match cs.dropWhile (· ≠ '=') with
    | [] => none
    | _ :: value => some (String.ofList value)
  match Valued.all.find? (·.spelling = name), Switch.all.find? (·.spelling = name) with
  | some option, _ => valued option attached?
  | none, some s => switch s attached?
  | none, none => unknown ("--" ++ name)

/-- A single hyphen is plain. Of several letters behind one hyphen the first decides, as each letter
that has a meaning ends the reading. -/
def ofString (text : String) : Token :=
  match text.toList with
  | ['-', '-'] => separator
  | '-' :: '-' :: rest => ofLong (String.ofList rest)
  | '-' :: letter :: _ =>
    match Switch.ofLetter? letter with
    | some s => switch s none
    | none => unknown (String.ofList ['-', letter])
  | _ => plain text

end Token

namespace Arguments

def addPath (a : Arguments) (path : String) : Except Stop Arguments :=
  if path = "" then .error (.invalidValue path) else .ok { a with paths := a.paths ++ [path] }

def setOption (a : Arguments) (option : Valued) (value : String) : Except Stop Arguments :=
  match option with
  | .config =>
    if a.config?.isSome then .error (.repeated option.spelling)
    else if value = "" then .error (.invalidValue value)
    else .ok { a with config? := some value }
  | .policy =>
    match Policy.ofKeyword? value with
    | some p => .ok { a with policies := a.policies ++ [p] }
    | none => .error (.invalidValue value)
  | .logLevel =>
    if a.logLevel?.isSome then .error (.repeated option.spelling)
    else match Log.Level.ofKeyword? value with
      | some l => .ok { a with logLevel? := some l }
      | none => .error (.invalidValue value)

def flip (a : Arguments) : Switch → Except Stop Arguments
  | .dryRun =>
    if a.dryRun then .error (.repeated Switch.dryRun.spelling) else .ok { a with dryRun := true }
  | .help long => .error (.help long)
  | .version => .error .version

end Arguments

/-- What is open while arguments are read. -/
inductive Open where
  | none
  | paths (paths : List String)
  | option (option : Valued) (value? : Option String)
  deriving DecidableEq

/-- What was read so far, what is open, and whether only paths may follow. -/
structure Reading where
  arguments : Arguments := {}
  current : Open := .none
  pathsOnly : Bool := false
  deriving DecidableEq

namespace Reading

/-- The arguments with what is open taken over. -/
def close (r : Reading) : Except Stop Arguments :=
  match r.current with
  | .none => .ok r.arguments
  | .paths paths => paths.foldlM Arguments.addPath r.arguments
  | .option option none => .error (.missingValue option)
  | .option option (some value) => r.arguments.setOption option value

def readPath (r : Reading) (path : String) : Except Stop Reading :=
  match r.current with
  | .paths paths => .ok { r with current := .paths (paths ++ [path]) }
  | _ => do return { r with arguments := ← r.close, current := .paths [path] }

/-- Reads one argument. An argument of unknown form and a needless value end the reading whatever is
open. -/
def read (r : Reading) (text : String) : Except Stop Reading :=
  if r.pathsOnly then r.readPath text
  else
    match Token.ofString text with
    | .plain text =>
      match r.current with
      | .option option none => .ok { r with current := .option option (some text) }
      | _ => r.readPath text
    | .separator => .ok { r with pathsOnly := true }
    | .valued option none => do
      return { r with arguments := ← r.close, current := .option option none }
    | .valued option (some value) => do
      return { r with arguments := ← (← r.close).setOption option value, current := .none }
    | .switch s none => do return { r with arguments := ← (← r.close).flip s, current := .none }
    | .switch s (some _) => .error (.needlessValue s)
    | .unknown text => .error (.unknownArgument text)

end Reading

/-- Reads a command line, without the program's name. -/
def Arguments.read (texts : List String) : Except Stop Arguments := do
  let a ← (← texts.foldlM Reading.read {}).close
  return if a.paths = [] then { a with paths := defaultPaths } else a

end Makespan.Command
