import Makespan.Host
import Makespan.Workflow.Validate

/-! Workflow descriptions and settings, from a file to a value that is known to be right. -/

namespace Makespan

inductive LoadError where
  /-- There is no such file, or it is not a text. -/
  | unreadable (cause : String)
  /-- The text is no document of the expected form. -/
  | malformed (cause : String)
  | workflow (fault : Workflow.Fault)
  | settings (fault : Settings.Fault)
  deriving DecidableEq

namespace LoadError

def message : LoadError → String
  | unreadable cause => "IO error: " ++ cause
  | malformed cause => "TOML parsing error: " ++ cause
  | workflow fault => fault.message
  | settings fault => fault.message

end LoadError

/-- A document of the form that `reader` reads. -/
def Host.readDocument {α : Type} (host : Host) (reader : String → Except String α)
    (path : String) : Except LoadError α :=
  match host.place.readText? path with
  | none => .error (.unreadable (host.unreadable path))
  | some text => (reader text).mapError .malformed

namespace Workflow

/-- A workflow without a name gets the file's, without its extension. -/
def named (w : Workflow) (path : String) : Workflow :=
  { w with name? := w.name?.or (Path.stem? path) }

def load (host : Host) (path : String) : Except LoadError Workflow := do
  let w ← host.readDocument host.workflow path
  (w.named path).validate.mapError .workflow

end Workflow

namespace Settings

def load (host : Host) (path : String) : Except LoadError Settings := do
  let s ← host.readDocument host.settings path
  s.validate.mapError .settings

/-- Where settings are looked for if no path is given. -/
def defaultPath : String := "Dagsim.toml"

/-- A path that is given has to lead to settings. Without one the default path is used if there is
a file, and the defaults if not. -/
def resolve (host : Host) (path? : Option String) : Except LoadError Settings :=
  match path? with
  | some path => load host path
  | none => if host.place.isFile defaultPath then load host defaultPath else .ok {}

end Settings

end Makespan
