import Makespan.Proofs.Broker.Rounds
import Makespan.Proofs.Simulation.CreatedSpeeds

/-! Simulations as timetables. The makespan of a simulation is computed from nothing: it is the time
of the first tick that is handled after the last completion. -/

namespace Makespan

/-- What is told of the answers to the creation requests. -/
def Settings.answers (settings : Settings) (provisioner : Provisioner) : List TraceEntry :=
  (List.range settings.workerCount).map fun w =>
    .acknowledged .zero w (settings.speed w) (provisioner w = .created)

theorem Broker.answers_eq {settings : Settings} {b : Broker}
    (hpool : b.pool = .ofTiers settings.tiers) (provisioner : Provisioner) :
    b.answers (fun w => provisioner w = .created) = settings.answers provisioner := by
  have hspeed : b.pool.speed = settings.speed := by
    funext w
    rw [hpool, Pool.speed, Pool.speed?_ofTiers, Settings.speed, List.getD_eq_getElem?_getD]
  rw [Broker.answers, hpool, Pool.size_ofTiers]
  unfold answerEntry
  rw [hspeed]
  rfl

/-- Every report of a simulation is a timetable. Each worker is answered for once, in order and at no
time; then one round follows the other, each beginning at the tick of its number with some job not
ended, and telling first what it gives out and then what ends. The next tick comes after all jobs
have ended, some of them in the last round; it finds nothing ready and gives nothing out, and its
time is the makespan. -/
theorem reports_are_timetables {rawWorkflow w : Workflow} (hw : rawWorkflow.validate = .ok w)
    {rawSettings settings : Settings} (hs : rawSettings.validate = .ok settings) (policy : Policy)
    (provisioner : Provisioner) {events : Nat} {r : Report}
    (hr : simulate? events w policy settings provisioner = some (.ok r)) :
    ∃ rounds, r.Timetable (settings.answers provisioner) settings.cycleDelay w.ids rounds := by
  have hw := Workflow.validate_sound hw
  have hs := Settings.validate_sound hs
  obtain ⟨b, hb, hi, hpool, hd, hcourse⟩ := hw.broker_ok hs policy
  rcases Broker.start_cases hi hpool provisioner with ⟨hstart, -⟩ | hstart
  · rw [simulate?_of_failed_start hb events hstart] at hr
    cases hr
  · rw [simulate?_of_start hb events hstart, Broker.runFor_eq,
      Broker.Progress.result?_eq_some_iff] at hr
    have hpos : 0 < b.scheduler.graph.size := by
      rw [hd.size_eq]
      exact List.length_pos_of_ne_nil hw.jobs_ne
    have hfresh : b.acknowledged = 0 ∧ b.cycleDelay = settings.cycleDelay := by
      obtain ⟨g, -, s, -, rfl⟩ := Workflow.broker_eq_ok_iff.mp hb
      exact ⟨rfl, rfl⟩
    have htable := (hcourse _).timetable (b.phase_requestAll _)
      ((b.acknowledged_requestAll _).trans hfresh.1)
      ((b.trace_requestAll _).trans (Workflow.trace_of_broker hb)) hpos hr
    rw [Broker.answers_eq hpool, hfresh.2, Broker.jobs, hd.map_id] at htable
    exact htable

/-- The last job ends after twelve seconds, and the simulation eight seconds later. -/
theorem twoInARow_is_timetable : ∃ r,
    simulate? 20 .twoInARow .shortestFirst .oneWorker .always = some (.ok r) ∧
      (r.lastCompletion, r.makespan) = (12, 20) ∧ ∃ rounds,
        r.Timetable (Settings.oneWorker.answers .always) 10 ["a", "b"] rounds := by
  have hends : (simulate? 20 .twoInARow .shortestFirst .oneWorker .always).bind
      (·.toOption.map fun r => (r.lastCompletion, r.makespan)) = some (12, 20) := by decide +kernel
  obtain ⟨result, hr, htimes⟩ := Option.bind_eq_some_iff.mp hends
  cases result with
  | error e => cases htimes
  | ok r =>
    exact ⟨r, hr, Option.some.inj htimes, reports_are_timetables Workflow.twoInARow_validate
      Settings.oneWorker_validate .shortestFirst .always hr⟩

end Makespan
