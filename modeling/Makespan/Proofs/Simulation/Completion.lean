import Makespan.Proofs.Simulation.Setup

/-! Simulations that come to their end. Whatever the workflow, the settings, the policy and the
provisioner are, all the work is done then, each job once, unless there was no worker at all. -/

namespace Makespan

namespace Broker

variable {created : WorkerId → Bool} {b₀ : Broker}

/-- How a run on course can end. -/
theorem Course.ended_cases {result : Except Error Report} (h : Course created b₀ (.ended result))
    {w : Workflow} (hw : w.Valid) {scale : Binary64}
    (hd : w.Describes scale b₀.scheduler.graph) :
    ((∀ v < b₀.pool.size, created v = false) ∧ result = .error .noUsableWorkers) ∨
      ((∃ v < b₀.pool.size, created v = true) ∧ ∃ r, result = .ok r ∧
        r.executed = w.jobs.length ∧ r.dispatchOrder.Perm w.ids ∧
        r.completionOrder.Perm w.ids) := by
  cases h with
  | refused none_created => exact Or.inl ⟨none_created, rfl⟩
  | stalled setup some_created h => exact absurd h (setup.not_stuck hw hd)
  | finished setup some_created h done ticks executed trace =>
    rw [← setup.graph] at hd
    refine Or.inr ⟨some_created, _, rfl, ?_, ?_, ?_⟩
    · rw [executed, h.count_of_done done, hd.size_eq]
    · rw [Report.dispatchOrder, trace, ← hd.map_id]
      exact h.dispatched_perm done
    · rw [Report.completionOrder, trace, ← hd.map_id]
      exact h.completed_perm done

/-- With a worker there is nothing to fail. -/
theorem Course.ended_ok {result : Except Error Report} (h : Course created b₀ (.ended result))
    (hc : ∃ v < b₀.pool.size, created v = true) {w : Workflow} (hw : w.Valid) {scale : Binary64}
    (hd : w.Describes scale b₀.scheduler.graph) : ∃ r, result = .ok r := by
  rcases h.ended_cases hw hd with ⟨hnone, -⟩ | ⟨-, r, hr, -⟩
  · obtain ⟨v, hv, hcv⟩ := hc
    rw [hnone v hv] at hcv
    cases hcv
  · exact ⟨r, hr⟩

end Broker

/-- A simulation can fail in two ways, neither of which has to do with any job. -/
theorem Workflow.Valid.failure_cases {w : Workflow} (hw : w.Valid) {settings : Settings}
    (hs : settings.Valid) {policy : Policy} {provisioner : Provisioner} {events : Nat} {e : Error}
    (hr : simulate? events w policy settings provisioner = some (.error e)) :
    e = .provisioningCrashed ∨ e = .noUsableWorkers := by
  obtain ⟨b, hb, hi, hpool, hd, hcourse⟩ := hw.broker_ok hs policy
  rcases Broker.start_cases hi hpool provisioner with ⟨hstart, -⟩ | hstart
  · rw [simulate?_of_failed_start hb events hstart] at hr
    exact Or.inl (Except.error.inj (Option.some.inj hr)).symm
  · have hend := (hcourse fun i => provisioner i = .created).progress events
    rw [simulate?_of_start hb events hstart, Broker.runFor_eq,
      Broker.Progress.result?_eq_some_iff] at hr
    rw [hr] at hend
    rcases hend.ended_cases hw hd with ⟨-, he⟩ | ⟨-, r, he, -⟩
    · exact Or.inr (Except.error.inj he)
    · cases he

/-- A simulation that ends has done all the work: every job was dispatched and completed once. The
one other way to end is that no worker was created. -/
theorem simulation_completes {rawWorkflow w : Workflow} (hw : rawWorkflow.validate = .ok w)
    {rawSettings settings : Settings} (hs : rawSettings.validate = .ok settings) (policy : Policy)
    {provisioner : Provisioner} (hp : ∀ i, provisioner i ≠ .crashed) {events : Nat}
    {result : Except Error Report}
    (hr : simulate? events w policy settings provisioner = some result) :
    ((∀ i < settings.workerCount, provisioner i ≠ .created) →
      result = .error .noUsableWorkers) ∧
    ((∃ i < settings.workerCount, provisioner i = .created) → ∃ r, result = .ok r ∧
      r.executed = w.jobs.length ∧ r.dispatchOrder.Perm w.ids ∧
      r.completionOrder.Perm w.ids) := by
  have hw := Workflow.validate_sound hw
  have hs := Settings.validate_sound hs
  obtain ⟨b, hb, hi, hpool, hd, hcourse⟩ := hw.broker_ok hs policy
  have hsize : b.pool.size = settings.workerCount := by rw [hpool, Pool.size_ofTiers]
  have hend := (hcourse fun i => provisioner i = .created).progress events
  rw [simulate?_eq hb hi hp, Broker.runFor_eq, Broker.Progress.result?_eq_some_iff] at hr
  rw [hr] at hend
  have hcases := hend.ended_cases hw hd
  simp only [hsize, decide_eq_false_iff_not, decide_eq_true_eq] at hcases
  rcases hcases with ⟨hnone, he⟩ | ⟨⟨v, hv, hc⟩, hok⟩
  · exact ⟨fun _ => he, fun ⟨v, hv, hc⟩ => absurd hc (hnone v hv)⟩
  · exact ⟨fun hnone => absurd hc (hnone v hv), fun _ => hok⟩

theorem twoInARow_completes : ∃ r,
    simulate? 20 .twoInARow .shortestFirst .oneWorker .always = some (.ok r) ∧ r.executed = 2 ∧
      r.dispatchOrder.Perm ["a", "b"] ∧ r.completionOrder.Perm ["a", "b"] := by
  have hends : (simulate? 20 .twoInARow .shortestFirst .oneWorker .always).isSome = true := by
    decide +kernel
  obtain ⟨result, hr⟩ := Option.isSome_iff_exists.mp hends
  obtain ⟨r, rfl, hperm⟩ := (simulation_completes Workflow.twoInARow_validate
    Settings.oneWorker_validate .shortestFirst (fun _ hc => by cases hc) hr).2 ⟨0, by decide, rfl⟩
  exact ⟨r, hr, hperm⟩

end Makespan
