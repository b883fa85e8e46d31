import Makespan.Command.Arguments
import Makespan.Discovery
import Makespan.Log.DryRun
import Makespan.Log.Sweep

/-! What is done about a command line that was understood: a sweep over the workflows it names, or a
listing of them. -/

namespace Makespan.Command

/-- Why nothing is done. -/
inductive Failure where
  | settings (error : LoadError)
  | missingPath (missing : Discovery.MissingPath)
  /-- The paths lead to no workflow. -/
  | noWorkflows (paths : List String)
  deriving DecidableEq

def Failure.message : Failure → String
  | settings error => error.message
  | missingPath missing => missing.message
  | noWorkflows paths =>
    "no workflow files found in " ++ Text.bracketed (paths.map Text.quoted)

/-- What a command prints, what is logged meanwhile, and how it fails if it does. -/
structure Execution where
  output : String := ""
  log : Log.Records := []
  failure? : Option Failure := none

/-- The settings of a command: policies on the command line replace the others. -/
def Arguments.settings (a : Arguments) (host : Host) : Except LoadError Settings := do
  let s ← Settings.resolve host a.config?
  return if a.policies = [] then s else { s with policies := a.policies }

/-- The settings and the workflow files of a command. -/
def Arguments.resolve (a : Arguments) (host : Host) :
    Except Failure (Settings × List String) := do
  let s ← (a.settings host).mapError .settings
  let files ← (Discovery.find host.place a.paths).mapError .missingPath
  if files = [] then throw (.noWorkflows a.paths)
  return (s, files)

def startLog (s : Settings) (files : List String) : Log.Records :=
  [⟨.info, .program, "starting sweep",
    [.count "workflows" files.length,
      .texts "policies" (s.policies.map Policy.variant),
      .count "workers" s.workerCount, .number "inter_cycle_delay" s.cycleDelay], none⟩]

def failuresLog (t : Sweep.Table) : Log.Records :=
  if t.failures = 0 then []
  else
    [⟨.warn, .program, "some runs failed; see log for details", [.count "failed" t.failures], none⟩]

/-- Executes a command whose runs take at most so many events each; `none` if they were not enough
for one of them. -/
def Arguments.execute? (events : Nat) (a : Arguments) (host : Host) : Option Execution :=
  let resolveLog := Settings.resolveLog host a.config?
  match a.resolve host with
  | .error failure => some { log := resolveLog, failure? := some failure }
  | .ok (s, files) =>
    let log := resolveLog ++ startLog s files
    if a.dryRun then
      some
        { output := DryRun.listing host s files
          log := log ++ DryRun.listingLog host s files }
    else do
      let t ← Sweep.run? events host s Sweep.allCreated files
      return {
        output := "\n" ++ t.render
        log := log ++ Sweep.runLog events host s Sweep.allCreated files ++ failuresLog t }

end Makespan.Command
