import Makespan.Proofs.Broker.Dependencies
import Makespan.Proofs.Broker.Tangled
import Makespan.Proofs.Simulation.Setup

/-! Graphs with cycles. No run over such a graph ever brings a report: it executes every task that no
cycle leads to and then gives up at a tick, telling how many tasks are left. -/

namespace Makespan

namespace Broker

variable {created : WorkerId → Bool} {b₀ b : Broker} {log : List Assignment} {g : Graph}

/-- The next event of `b` is a tick that fails and leaves `c`: nobody is busy, and all that is left
are the tasks of `g` on or behind cycles, none of which was ever dispatched. -/
structure StallsAt (g : Graph) (b : Broker) (time : Time) (c : Broker) : Prop where
  tick : ∃ rest, b.events.pop? = some (time, .nextCycle, rest) ∧
    { b with clock := time, events := rest }.step .nextCycle =
      ⟨c, some (.stalled time {k | g.Tangled k}.ncard)⟩
  idle : c.pool.busy = 0
  executed_iff : ∀ k < g.size, c.scheduler.isExecuted k = true ↔ ¬ g.Tangled k
  spared : ∀ k, g.Tangled k → g.id k ∉ c.trace.toList.filterMap (·.dispatched?)

theorem Accounted.spared (h : b.Accounted log) (ho : b.scheduler.graph.outline = g.outline)
    {k : TaskKey} (hk : g.Tangled k) : g.id k ∉ b.trace.toList.filterMap (·.dispatched?) := by
  have hk : b.scheduler.graph.Tangled k := (Graph.tangled_of_outline ho k).mpr hk
  rw [← Graph.id_of_outline ho]
  exact (Graph.tangled_absent h.scheduler.graph h.trace.law k hk).1

theorem Course.spared (h : Course created b₀ (.running b))
    (ho : b₀.scheduler.graph.outline = g.outline) {k : TaskKey} (hk : g.Tangled k) :
    g.id k ∉ b.trace.toList.filterMap (·.dispatched?) := by
  cases h with
  | provisioning setup lt h => exact h.accounted.spared (setup.graph ▸ ho) hk
  | steady setup some_created h => exact h.flight.accounted.spared (setup.graph ▸ ho) hk

theorem Stuck.stallsAt {c : Broker} {time : Time} {rest : List (Time × Event)}
    (h : Stuck created c log) (ho : c.scheduler.graph.outline = g.outline)
    (hp : b.events.pending = (time, .nextCycle) :: rest)
    (hstep : { b with clock := time, events := ⟨rest⟩ }.step .nextCycle =
      ⟨c, some (.stalled time c.scheduler.remaining)⟩) : StallsAt g b time c where
  tick := by
    refine ⟨⟨rest⟩, EventQueue.pop?_of_pending hp, ?_⟩
    rw [hstep, h.remaining_eq]
    simp only [Graph.tangled_of_outline ho]
  idle := h.idle
  executed_iff k hk := by
    rw [h.executed_iff (Graph.size_of_outline ho ▸ hk), Graph.tangled_of_outline ho]
  spared k hk := h.cycle.flight.accounted.spared ho hk

/-- If there is a cycle, a run on course can only end by giving up at a tick. -/
theorem Course.stalls {n : Nat} {result : Except Error Report}
    (h : Course created b₀ (.running b)) (hc : ∃ w < b₀.pool.size, created w = true)
    (ho : b₀.scheduler.graph.outline = g.outline) (hcycle : ∃ k, g.Tangled k)
    (hn : b.progress n = .ended result) :
    ∃ m c time d, b.progress m = .running c ∧ StallsAt g c time d ∧
      result = .error (.stalled time {k | g.Tangled k}.ncard) := by
  obtain ⟨m, c, hm, hadv⟩ := exists_last_event hn
  have hcourse := hm ▸ h.progress m
  cases hcourse with
  | provisioning setup lt hprov =>
    exfalso
    have hend := hadv ▸ hprov.advance lt setup
    rw [hprov.advance_eq lt] at hadv
    split at hadv
    · cases hadv
    · split at hadv
      · obtain rfl := Progress.ended.inj hadv
        cases hend with
        | refused none_created =>
          obtain ⟨w, hw, hcw⟩ := hc
          rw [none_created w hw] at hcw
          cases hcw
      · cases hadv
  | steady setup some_created hsteady =>
    obtain ⟨k, hk⟩ := hcycle
    have hoc : c.scheduler.graph.outline = g.outline := setup.graph ▸ ho
    obtain ⟨time, rest, d, log', hp, hstep, rfl, hsetup, hstuck⟩ :=
      hsteady.stuck_of_ended ⟨k, (Graph.tangled_of_outline hoc k).mpr hk⟩ hadv
    have hod : d.scheduler.graph.outline = g.outline := hsetup.graph ▸ hoc
    refine ⟨m, c, time, d, hm, hstuck.stallsAt hod hp hstep, ?_⟩
    rw [hstuck.remaining_eq]
    simp only [Graph.tangled_of_outline hod]

end Broker

/-- Every run over a graph with a cycle, with any policy and at least one worker, ends by giving up
if it ends at all. It does so at a tick at which nobody is busy and every task that is not on or
behind a cycle has been executed, and it tells how many tasks are on or behind cycles. None of these
is dispatched at any point of the run. -/
theorem cyclic_runs_stall (ds : List Graph.Declaration)
    (hcycle : ∃ k, (Graph.ofDeclarations ds).Ancestor k k) (policy : Policy)
    {rawSettings settings : Settings} (hs : rawSettings.validate = .ok settings)
    {provisioner : Provisioner} (hp : ∀ i < settings.workerCount, provisioner i ≠ .crashed)
    (hc : ∃ i < settings.workerCount, provisioner i = .created) (label : String) :
    let g := Graph.ofDeclarations ds
    ∃ s, Scheduler.new g policy = .ok s ∧
      let b₀ := Broker.new label s settings.tiers settings.cycleDelay
      ∃ b, b₀.start provisioner = .ok b ∧
        (∀ events result, b₀.run? events provisioner = some result →
          ∃ n c time d, b.progress n = .running c ∧ Broker.StallsAt g c time d ∧
            result = .error (.stalled time {k | g.Tangled k}.ncard)) ∧
        ∀ n c, b.progress n = .running c → ∀ k, g.Tangled k →
          g.id k ∉ c.trace.toList.filterMap (·.dispatched?) := by
  intro g
  have hs := Settings.validate_sound hs
  obtain ⟨s, hnew, ho, hacc⟩ := Broker.new_accounted_of_declarations ds policy
  refine ⟨s, hnew, ?_⟩
  intro b₀
  have hstart : b₀.start provisioner = .ok (b₀.requestAll fun i => provisioner i = .created) := by
    refine (Broker.start_cases (b := b₀) rfl rfl provisioner).resolve_left ?_
    rintro ⟨-, i, hi, hcrashed⟩
    exact hp i hi hcrashed
  have hcourse := Broker.new_course hs (hacc label settings.tiers settings.cycleDelay)
    fun i => provisioner i = .created
  have hsome : ∃ w < b₀.pool.size, decide (provisioner w = .created) = true := by
    rw [show b₀.pool.size = settings.workerCount from Pool.size_ofTiers settings]
    simpa using hc
  obtain ⟨k, hk⟩ := hcycle
  have htangled : ∃ k, g.Tangled k := ⟨k, k, hk, Or.inl rfl⟩
  refine ⟨_, hstart, fun events result hr => ?_, fun n c hn k hk => ?_⟩
  · have hr : (b₀.requestAll fun i => provisioner i = .created).runFor events = some result := by
      rw [Broker.run?, hstart] at hr
      exact hr
    rw [Broker.runFor_eq, Broker.Progress.result?_eq_some_iff] at hr
    exact hcourse.stalls hsome ho htangled hr
  · exact Broker.Course.spared (hn ▸ hcourse.progress n) ho hk

/-- A task of its own, and two that wait for each other. -/
def Graph.deadlock : List Graph.Declaration :=
  [.task (.new "a" "" "" 1 1), .task (.new "b" "" "" 1 1), .task (.new "c" "" "" 1 1),
    .dependency "b" ["c"], .dependency "c" ["b"]]

/-- The one task is executed by the second tick, and the other two remain. -/
theorem deadlock_stalls : ∃ s,
    Scheduler.new (.ofDeclarations Graph.deadlock) .shortestFirst = .ok s ∧
      let b₀ := Broker.new "deadlock" s Settings.oneWorker.tiers Settings.oneWorker.cycleDelay
      b₀.run? 20 .always = some (.error (.stalled 10 2)) ∧
        {k | (Graph.ofDeclarations Graph.deadlock).Tangled k}.ncard = 2 ∧
        ∃ b n c d, b₀.start .always = .ok b ∧ b.progress n = .running c ∧
          Broker.StallsAt (.ofDeclarations Graph.deadlock) c 10 d := by
  have hcycle : (Graph.ofDeclarations Graph.deadlock).Ancestor 1 1 :=
    .tail (.single (b := 2) (by decide +kernel)) (by decide +kernel)
  have hp : ∀ i < Settings.oneWorker.workerCount, Provisioner.always i ≠ .crashed := by
    intro i _ hc
    cases hc
  obtain ⟨s, hs, b, hb, hends, -⟩ := cyclic_runs_stall Graph.deadlock ⟨1, hcycle⟩ .shortestFirst
    Settings.oneWorker_validate hp ⟨0, by decide, rfl⟩ "deadlock"
  have hrun : (Scheduler.new (.ofDeclarations Graph.deadlock) .shortestFirst).toOption.bind
      (fun s => ((Broker.new "deadlock" s Settings.oneWorker.tiers
        Settings.oneWorker.cycleDelay).run? 20 .always).map (·.map fun _ => ())) =
      some (.error (.stalled 10 2)) := by decide +kernel
  obtain ⟨s', hs', hrun⟩ := Option.bind_eq_some_iff.mp hrun
  obtain rfl : s = s' := by
    rw [hs] at hs'
    exact Option.some.inj hs'
  obtain ⟨result, hr, he⟩ := Option.map_eq_some_iff.mp hrun
  obtain ⟨n, c, time, d, hn, hstalls, rfl⟩ := hends 20 result hr
  obtain ⟨rfl, hcount⟩ := Error.stalled.inj (Except.error.inj he)
  rw [hcount] at hr
  exact ⟨s, hs, hr, hcount, b, n, c, d, hb, hn, hstalls⟩

end Makespan
