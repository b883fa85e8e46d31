import Makespan.Host
import Makespan.Settings.OfToml
import Makespan.Workflow.OfToml

/-! The host that the executable runs on: the wording is that of a common system, and the readers
are those of `Makespan.Toml`. -/

namespace Makespan.Place

/-- Whether a path goes on behind a file. -/
def leadsThroughFile (p : Place) (path : String) : Bool :=
  let segments := Path.segments path
  (List.range segments.length).any fun n => p.isFile ("/".intercalate (segments.take n))

/-- How a system words that it cannot read what stands at a path. -/
def unreadable (p : Place) (path : String) : String :=
  match p.find? path with
  | some (.file _) => "stream did not contain valid UTF-8"
  | some (.dir _) => "Is a directory (os error 21)"
  | none =>
    if p.leadsThroughFile path then "Not a directory (os error 20)"
    else "No such file or directory (os error 2)"

/-- What is said of every document that is refused. -/
def refusedDocument : String := "the document does not have the expected form"

def host (p : Place) : Host where
  place := p
  unreadable := p.unreadable
  workflow document := (Workflow.read? document).elim (.error refusedDocument) .ok
  settings document := (Settings.read? document).elim (.error refusedDocument) .ok
  breakdown number := "task " ++ toString number ++ " panicked"

end Makespan.Place
