import Makespan.Settings
import Makespan.Toml.Decode

/-! Simulation settings as documents: a `[simulation]` section and a `[[worker_tier]]` for each
tier. What is left out has its default. -/

namespace Makespan

open Toml

def Tier.ofToml? (v : Value) : Option Tier := do
  match ← v.fields? ["mips", "count"] with
  | [some speed, some count] => return ⟨← speed.number?, ← count.count?⟩
  | _ => none

def Policy.ofToml? (v : Value) : Option Policy :=
  v.choice?.bind Policy.ofKeyword?

namespace Settings

/-- The given settings with what a `[simulation]` section says. -/
def ofSection? (s : Settings) (v : Value) : Option Settings := do
  match ← v.fields? ["inter_cycle_delay", "length_scale", "policies"] with
  | [delay, scale, policies] =>
    return { s with
      cycleDelay := ← Value.orElse s.cycleDelay Value.number? delay
      lengthScale := ← Value.orElse s.lengthScale Value.number? scale
      policies := ← Value.orElse s.policies (Value.list? Policy.ofToml?) policies }
  | _ => none

def ofToml? (v : Value) : Option Settings := do
  let default : Settings := {}
  match ← v.fields? ["simulation", "worker_tier"] with
  | [section_, tiers] =>
    let s ← Value.orElse default default.ofSection? section_
    return { s with tiers := ← Value.orElse s.tiers (Value.list? Tier.ofToml?) tiers }
  | _ => none

/-- The settings that a document holds; nothing is checked yet. The executable reads with this, and
everything else with the reader of its host. -/
def read? (document : String) : Option Settings :=
  (document? document).bind ofToml?

end Settings

end Makespan
