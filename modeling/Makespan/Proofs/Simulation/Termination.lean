import Makespan.Proofs.Broker.Outlasted
import Makespan.Proofs.Broker.Standstill
import Makespan.Proofs.Simulation.Completion
import Makespan.Proofs.Simulation.CreatedSpeeds

/-! Which simulations come to an end. The one thing that keeps a simulation from its end is a timer
that ticks and ticks at one time; there are settings and workflows, all of them valid, with which it
does. -/

namespace Makespan

/-- A simulation ends exactly if it never comes to a standstill. -/
theorem ends_iff_never_at_standstill {rawWorkflow w : Workflow} (hw : rawWorkflow.validate = .ok w)
    {rawSettings settings : Settings} (hs : rawSettings.validate = .ok settings) (policy : Policy)
    (provisioner : Provisioner) :
    (∃ result, SimulatesTo w policy settings provisioner result) ↔
      ∀ b b', w.broker policy settings = .ok b → b.start provisioner = .ok b' →
        ∀ events c, b'.progress events = .running c → ¬ c.Standstill := by
  have hw := Workflow.validate_sound hw
  have hs := Settings.validate_sound hs
  obtain ⟨b, hb, hi, hpool, hd, hcourse⟩ := hw.broker_ok hs policy
  rcases Broker.start_cases hi hpool provisioner with ⟨hstart, -⟩ | hstart
  · -- the requests themselves fail
    have hends : SimulatesTo w policy settings provisioner (.error .provisioningCrashed) :=
      ⟨0, simulate?_of_failed_start hb 0 hstart⟩
    refine iff_of_true ⟨_, hends⟩ fun b₁ b' hb₁ hb' => ?_
    obtain rfl : b = b₁ := Except.ok.inj (hb.symm.trans hb₁)
    rw [hstart] at hb'
    cases hb'
  · have hstanding := (hcourse fun i => provisioner i = .created).standing (b.phase_requestAll _)
    have hfree : ∀ c log, Broker.SameSetup (b.requestAll fun i => provisioner i = .created) c →
        ¬ Broker.Stuck (fun i => provisioner i = .created) c log := by
      intro c log hsetup hstuck
      rw [← ((Broker.SameSetup.requestAll b _).trans hsetup).graph] at hd
      exact hstuck.false_of_valid hw hd
    have hends := hstanding.ends_iff hfree
    constructor
    · intro ⟨result, n, hn⟩ b₁ b' hb₁ hb'
      obtain rfl : b = b₁ := Except.ok.inj (hb.symm.trans hb₁)
      obtain rfl := Except.ok.inj (hstart.symm.trans hb')
      rw [simulate?_of_start hb _ hstart, Broker.runFor_eq,
        Broker.Progress.result?_eq_some_iff] at hn
      exact hends.mp ⟨n, result, hn⟩
    · intro hmoves
      obtain ⟨n, result, hn⟩ := hends.mpr (hmoves b _ hb hstart)
      refine ⟨result, n, ?_⟩
      rw [simulate?_of_start hb _ hstart, Broker.runFor_eq, hn]
      rfl

/-- Two jobs on one worker are done long before the clock stands still. -/
theorem twoInARow_never_at_standstill :
    (∃ result, SimulatesTo .twoInARow .shortestFirst .oneWorker .always result) ∧
      ∀ b b', Workflow.twoInARow.broker .shortestFirst .oneWorker = .ok b →
        b.start .always = .ok b' → ∀ events c, b'.progress events = .running c →
          ¬ c.Standstill := by
  have hends : (simulate? 20 .twoInARow .shortestFirst .oneWorker .always).isSome = true := by
    decide +kernel
  obtain ⟨result, hr⟩ := Option.isSome_iff_exists.mp hends
  exact ⟨⟨result, 20, hr⟩, (ends_iff_never_at_standstill Workflow.twoInARow_validate
    Settings.oneWorker_validate .shortestFirst .always).mp ⟨result, 20, hr⟩⟩

/-! ## A timer that never gets to the end of a job -/

theorem Workflow.Describes.exists_job {w : Workflow} {scale : Binary64} {g : Graph}
    (h : w.Describes scale g) {k : TaskKey} (hk : k < g.size) :
    ∃ j ∈ w.jobs, g.workLength k = (j.task scale).length := by
  obtain ⟨n, hn⟩ := Graph.exists_node hk
  have hm : n.task ∈ w.jobs.map (·.task scale) := by
    rw [← h.tasks]
    exact List.mem_map_of_mem (Array.mem_toList_iff.mpr (Array.mem_of_getElem? hn))
  obtain ⟨j, hj, hjn⟩ := List.mem_map.mp hm
  exact ⟨j, hj, by rw [Graph.workLength, hn, hjn]; rfl⟩

/-- The time that a task takes is that of a job on a created worker. -/
theorem Workflow.Describes.exists_executionTime_eq {w : Workflow} {settings : Settings} {b : Broker}
    (h : w.Describes settings.lengthScale b.scheduler.graph)
    (hpool : b.pool = .ofTiers settings.tiers) {provisioner : Provisioner} {v : WorkerId}
    (hv : v < b.pool.size) (hcv : provisioner v = .created) {k : TaskKey}
    (hk : k < b.scheduler.graph.size) :
    ∃ j ∈ w.jobs, ∃ speed ∈ settings.createdSpeeds provisioner,
      b.pool.executionTime v (b.scheduler.graph.workLength k) =
        .ofNat (j.task settings.lengthScale).length / speed := by
  rw [hpool, Pool.size_ofTiers] at hv
  obtain ⟨j, hj, hlength⟩ := h.exists_job hk
  have hm : v ∈ settings.created provisioner :=
    List.mem_filter.mpr ⟨List.mem_range.mpr hv, decide_eq_true hcv⟩
  have hspeed : settings.speeds[v]? = some (settings.speed v) := by
    have hlt : v < settings.speeds.length := by rwa [Settings.length_speeds]
    rw [Settings.speed, List.getD_eq_getElem?_getD, List.getElem?_eq_getElem hlt]
    rfl
  refine ⟨j, hj, settings.speed v, List.mem_map_of_mem hm, ?_⟩
  rw [hpool, Pool.executionTime_ofTiers, hspeed, hlength, Option.elim_some]

theorem Broker.outlasts_of_long {w : Workflow} (hw : w.Valid) {settings : Settings} {b : Broker}
    (hpool : b.pool = .ofTiers settings.tiers)
    (hd : w.Describes settings.lengthScale b.scheduler.graph)
    (hdelay : b.cycleDelay = settings.cycleDelay) {provisioner : Provisioner} {limit : Time}
    (hlimit : limit.NonNegative) (hstill : limit + settings.cycleDelay = limit)
    (hlong : ∀ j ∈ w.jobs, ∀ speed ∈ settings.createdSpeeds provisioner,
      limit.rank < (.ofNat (j.task settings.lengthScale).length / speed : Binary64).rank) :
    Outlasts (fun i => provisioner i = .created) b limit where
  number := hlimit
  still := by rw [hdelay]; exact hstill
  work := by
    rw [hd.size_eq]
    exact List.length_pos_of_ne_nil hw.jobs_ne
  long := by
    intro v hv hcv k hk
    obtain ⟨j, hj, speed, hspeed, htime⟩ :=
      hd.exists_executionTime_eq hpool hv (of_decide_eq_true hcv) hk
    rw [htime]
    exact hlong j hj speed hspeed

/-- If the delay is too small to change some time and every job takes longer than that on every
created worker, the simulation never ends. -/
theorem never_ends_of_outlasting {w : Workflow} (hw : w.Valid) {settings : Settings}
    (hs : settings.Valid) (policy : Policy) {provisioner : Provisioner}
    (hp : ∀ i, provisioner i ≠ .crashed) (hc : ∃ i < settings.workerCount, provisioner i = .created)
    {limit : Time} (hlimit : limit.NonNegative) (hstill : limit + settings.cycleDelay = limit)
    (hlong : ∀ j ∈ w.jobs, ∀ speed ∈ settings.createdSpeeds provisioner,
      limit.rank < (.ofNat (j.task settings.lengthScale).length / speed : Binary64).rank)
    (events : Nat) : simulate? events w policy settings provisioner = none := by
  obtain ⟨b, hb, hi, hpool, hd, hcourse⟩ := hw.broker_ok hs policy
  obtain ⟨es, he⟩ := b.exists_requestAll_eq fun i => provisioner i = .created
  obtain ⟨g, -, s, -, rfl⟩ := Workflow.broker_eq_ok_iff.mp hb
  have hlasts := Broker.outlasts_of_long hw hpool hd rfl hlimit hstill hlong
  have hstanding := (hcourse fun i => provisioner i = .created).standing
    (Broker.phase_requestAll _ _)
  have hunfinished := hstanding.unfinished (Broker.phase_requestAll _ _) (.requestAll _ _) hlimit
    (by rw [he]; rfl)
  have hend := (hcourse fun i => provisioner i = .created).progress events
  have hno := hstanding.no_report hunfinished hlasts events
  rw [simulate?_eq hb hi hp, Broker.runFor_eq]
  cases hn : Broker.progress events _ with
  | running c => rfl
  | ended result =>
    rw [hn] at hend
    obtain ⟨r, rfl⟩ := hend.ended_ok (Broker.exists_created hpool hc) hw hd
    exact absurd hn (hno r)

/-- One job that takes more seconds than a tick of one second can count. -/
def Workflow.snail : Workflow where
  jobs := [{ id := "a", runtime := .ofNat (10 ^ 16) }]
  dependencies := []

/-- Workers of speed 1, and a tick every second. -/
def Settings.everySecond : Settings where
  cycleDelay := 1
  lengthScale := 1
  policies := [.shortestFirst]
  tiers := [⟨1, 3000⟩]

/-- All but the first worker fail. -/
def Provisioner.firstOnly : Provisioner := .failing (List.range' 1 2999)

/-- One second more than 2^53 seconds is rounded to 2^53 seconds: the timer stands still there, and
the job would be done later than that. -/
theorem snail_never_ends :
    Workflow.snail.validate = .ok .snail ∧ Settings.everySecond.validate = .ok .everySecond ∧
      ∀ events, simulate? events .snail .shortestFirst .everySecond .firstOnly = none := by
  have hw : Workflow.snail.validate = .ok .snail := by decide +kernel
  have hs : Settings.everySecond.validate = .ok .everySecond := by decide +kernel
  refine ⟨hw, hs, never_ends_of_outlasting (Workflow.validate_sound hw)
    (Settings.validate_sound hs) .shortestFirst ?_ ?_ (Binary64.ofNat_nonNegative (2 ^ 53)) ?_ ?_⟩
  · intro i hi
    unfold Provisioner.firstOnly Provisioner.failing at hi
    split at hi <;> cases hi
  · exact ⟨0, by decide +kernel, by simp [Provisioner.firstOnly, Provisioner.failing]⟩
  · decide +kernel
  · intro j hj speed hspeed
    obtain rfl := List.mem_singleton.mp hj
    obtain ⟨v, hv, rfl⟩ := List.mem_map.mp hspeed
    have hlt : v < 3000 := List.mem_range.mp (List.mem_filter.mp hv).1
    have hspeeds : Settings.everySecond.speeds = List.replicate 3000 1 := List.append_nil _
    have hone : Settings.everySecond.speed v = 1 := by
      rw [Settings.speed, hspeeds, List.getD_eq_getElem?_getD,
        List.getElem?_replicate_of_lt hlt]
      rfl
    rw [hone]
    decide +kernel

end Makespan
