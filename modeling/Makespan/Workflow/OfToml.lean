import Makespan.Toml.Decode
import Makespan.Workflow.Basic

/-! Workflow descriptions as documents: a `[workflow]` section with the name, a `[[job]]` for each
job and a `[[child]]` for each dependency. -/

namespace Makespan

open Toml

def Job.ofToml? (v : Value) : Option Job := do
  match ← v.fields? ["id", "namespace", "name", "runtime"] with
  | [some id, space, name, some runtime] =>
    return { id := ← id.string?, space := ← Value.orElse "" Value.string? space
             name := ← Value.orElse "" Value.string? name, runtime := ← runtime.number? }
  | _ => none

def Dependency.ofToml? (v : Value) : Option Dependency := do
  match ← v.fields? ["ref", "parents"] with
  | [some child, parents] =>
    return ⟨← child.string?, ← Value.orElse [] (Value.list? Value.string?) parents⟩
  | _ => none

namespace Workflow

def nameOfToml? (v : Value) : Option (Option String) := do
  match ← v.fields? ["name"] with
  | [name] => Value.orElse none (fun v => v.string?.map some) name
  | _ => none

def ofToml? (v : Value) : Option Workflow := do
  match ← v.fields? ["workflow", "job", "child"] with
  | [section_, jobs, dependencies] =>
    return { name? := ← Value.orElse none nameOfToml? section_
             jobs := ← Value.orElse [] (Value.list? Job.ofToml?) jobs
             dependencies := ← Value.orElse [] (Value.list? Dependency.ofToml?) dependencies }
  | _ => none

/-- The description that a document holds; nothing is checked yet. The executable reads with this,
and everything else with the reader of its host. -/
def read? (document : String) : Option Workflow :=
  (document? document).bind ofToml?

end Workflow

end Makespan
