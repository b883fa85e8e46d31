import Makespan.Proofs.Broker.Chronicle
import Makespan.Proofs.Simulation.Ticks

/-! Simulations as timelines. Time never goes back, from event to event and from entry to entry of
the trace, and no worker has two jobs at once: each job ends when its work is done, and its end is
told before the next one is begun. -/

namespace Makespan

/-- Unless the requests for workers fail, at every point of the run the next event is not before the
clock, and the trace is a chronicle: its times never decrease, a completion tells the end of the one
dispatch of its job, which is when the work was bound to end, and a worker is given a job only after
the completions of all that it was given before. -/
theorem runs_are_chronicles {rawWorkflow w : Workflow} (hw : rawWorkflow.validate = .ok w)
    {rawSettings settings : Settings} (hs : rawSettings.validate = .ok settings) (policy : Policy)
    (provisioner : Provisioner) :
    (∃ b, w.broker policy settings = .ok b ∧
      ((∃ i < settings.workerCount, provisioner i = .crashed) ∨
        ∃ b', b.start provisioner = .ok b' ∧ ∀ events,
          (∀ c, b'.progress events = .running c → ∀ time event rest,
            c.events.pop? = some (time, event, rest) → c.clock.le time = true) ∧
          ∀ trace, (b'.progress events).trace? = some trace →
            Along (w.plan settings provisioner).Records trace.toList)) ∧
    ∀ events r, simulate? events w policy settings provisioner = some (.ok r) →
      Along (w.plan settings provisioner).Records r.trace.toList := by
  have hw := Workflow.validate_sound hw
  have hs := Settings.validate_sound hs
  obtain ⟨b, hb, hi, hpool, hd, hcourse⟩ := hw.broker_ok hs policy
  rcases Broker.start_cases hi hpool provisioner with ⟨hstart, hcrashed⟩ | hstart
  · refine ⟨⟨b, hb, Or.inl hcrashed⟩, fun events r hr => ?_⟩
    rw [simulate?_of_failed_start hb _ hstart] at hr
    cases hr
  · have hstanding : Broker.Standing (fun i => provisioner i = .created)
        (b.requestAll fun i => provisioner i = .created) [] :=
      (hcourse _).standing (b.phase_requestAll _)
    have hall := hstanding.progress_chronicled (.requestAll b _)
      ((b.trace_requestAll _).trans (Workflow.trace_of_broker hb))
    rw [Broker.plan_eq hw hd hpool] at hall
    refine ⟨⟨b, hb, Or.inr ⟨_, hstart, fun events => ⟨?_, (hall events).2⟩⟩⟩, fun events r hr => ?_⟩
    · intro c hc time event rest hpop
      refine (hall events).1 c hc (time, event) ?_
      unfold EventQueue.pop? at hpop
      split at hpop
      · cases hpop
      · rename_i hpending
        obtain ⟨rfl, rfl, -⟩ := hpop
        rw [hpending]
        exact List.mem_cons_self
    · rw [simulate?_of_start hb _ hstart, Broker.runFor_eq,
        Broker.Progress.result?_eq_some_iff] at hr
      exact (hall events).2 r.trace (by rw [hr]; rfl)

/-- Two jobs on one worker. -/
theorem twoInARow_is_chronicle : ∃ r,
    simulate? 20 .twoInARow .shortestFirst .oneWorker .always = some (.ok r) ∧ r.executed = 2 ∧
      Along (Workflow.twoInARow.plan .oneWorker .always).Records r.trace.toList := by
  have hends : (simulate? 20 .twoInARow .shortestFirst .oneWorker .always).bind
      (·.toOption.map (·.executed)) = some 2 := by decide +kernel
  obtain ⟨result, hr, hexecuted⟩ := Option.bind_eq_some_iff.mp hends
  cases result with
  | error e => cases hexecuted
  | ok r =>
    exact ⟨r, hr, Option.some.inj hexecuted, (runs_are_chronicles Workflow.twoInARow_validate
      Settings.oneWorker_validate .shortestFirst .always).2 20 r hr⟩

end Makespan
