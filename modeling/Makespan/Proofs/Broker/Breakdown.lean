import Makespan.Proofs.Simulation.Setup

/-! Breakdowns. Whatever creates the workers can break a run down when it is asked for them, which
is before anything happens. No event that the broker handles later ends a run in this way. -/

namespace Makespan

theorem Pool.claim_ne_crashed (p : Pool) (w : WorkerId) (task : TaskKey) :
    p.claim w task ≠ .error .provisioningCrashed := by
  unfold claim worker
  cases p.worker? w with
  | none => simp [bind, Except.bind]
  | some x =>
    by_cases hidle : x.isIdle = true <;>
      simp [hidle, bind, Except.bind, pure, Except.pure, throw, throwThe, MonadExceptOf.throw]

/-- A request failed since whatever creates the workers broke down. -/
def Outcome.BrokeDown (o : Outcome) : Prop := o.error? = some .provisioningCrashed

namespace Broker

variable (b : Broker)

/-! ## Events -/

theorem handleCreated_not_brokeDown (w : WorkerId) (created : Bool) :
    ¬ (b.handleCreated w created).BrokeDown := by
  by_cases hw : w < b.pool.size
  · rw [handleCreated_of_lt hw]
    split
    · exact nofun
    · split <;> exact nofun
  · rw [handleCreated_of_not_lt hw]
    exact nofun

theorem dispatch_not_brokeDown (task : TaskKey) (w : WorkerId) :
    ¬ (b.dispatch task w).BrokeDown := by
  have hclaim := b.pool.claim_ne_crashed w task
  unfold dispatch
  split
  · rename_i e he
    intro hbroke
    obtain rfl : e = .provisioningCrashed := Option.some.inj hbroke
    exact hclaim he
  · exact nofun

theorem dispatchAll_not_brokeDown (ws : List WorkerId) : ¬ (b.dispatchAll ws).BrokeDown := by
  induction ws generalizing b with
  | nil => exact nofun
  | cons w ws ih =>
    unfold dispatchAll
    split
    · exact nofun
    · rename_i task scheduler _
      have hdispatch := dispatch_not_brokeDown { b with scheduler } task w
      split
      · exact ih _
      · exact hdispatch

theorem rearm_not_brokeDown : ¬ b.rearm.BrokeDown := by
  rw [rearm_eq]
  split
  · exact nofun
  · split <;> exact nofun

theorem handleCycle_not_brokeDown : ¬ b.handleCycle.BrokeDown := by
  have hall := b.beginCycle.dispatchAll_not_brokeDown b.pool.idle
  cases ho : b.beginCycle.dispatchAll b.pool.idle with
  | mk c error? =>
    rw [ho] at hall
    cases error? with
    | none =>
      rw [handleCycle_of_dispatchAll ho]
      exact c.rearm_not_brokeDown
    | some e =>
      rw [handleCycle_of_failure ho]
      exact hall

theorem handleFinished_not_brokeDown (w : WorkerId) (task : TaskKey) (started : Time) :
    ¬ (b.handleFinished w task started).BrokeDown := by
  cases hw : b.pool.holds? w with
  | none =>
    rw [handleFinished_of_free hw]
    split <;> exact nofun
  | some held =>
    by_cases hne : held = task
    · subst hne
      cases hx : b.scheduler.isExecuted held with
      | false => rw [handleFinished_of_held hw hx]; exact nofun
      | true => rw [handleFinished_of_executed hw hx]; exact nofun
    · rw [handleFinished_of_other hw hne]
      exact nofun

theorem handleEnd_not_brokeDown : ¬ b.handleEnd.BrokeDown := by
  rw [handleEnd_eq]
  split <;> exact nofun

theorem step_not_brokeDown (event : Event) : ¬ (b.step event).BrokeDown := by
  cases hp : b.phase <;> cases event <;> simp only [step, hp]
  case provisioning.workerCreated w created => exact b.handleCreated_not_brokeDown w created
  case scheduling.nextCycle => exact b.handleCycle_not_brokeDown
  case scheduling.taskFinished w task started => exact b.handleFinished_not_brokeDown w task started
  case scheduling.endOfSimulation => exact b.handleEnd_not_brokeDown
  all_goals simp [Outcome.BrokeDown]

/-! ## Runs -/

theorem report_ne_crashed : b.report ≠ .error .provisioningCrashed := by
  unfold report
  split <;> exact nofun

theorem settle_ne_crashed : b.settle ≠ .ended (.error .provisioningCrashed) := by
  unfold settle
  split
  · exact fun h => b.report_ne_crashed (Progress.ended.inj h)
  · split <;> exact nofun

theorem advance_ne_crashed : b.advance ≠ .ended (.error .provisioningCrashed) := by
  unfold advance
  split
  · exact fun h => b.report_ne_crashed (Progress.ended.inj h)
  · rename_i time event events _
    have hstep := step_not_brokeDown { b with clock := time, events } event
    split
    · rename_i e ho
      rw [ho] at hstep
      intro h
      obtain rfl := Except.error.inj (Progress.ended.inj h)
      exact hstep rfl
    · exact settle_ne_crashed _

theorem runFor_ne_crashed (n : Nat) : b.runFor n ≠ some (.error .provisioningCrashed) := by
  induction n generalizing b with
  | zero => exact nofun
  | succ n ih =>
    unfold runFor
    cases ha : b.advance with
    | running c => exact ih c
    | ended result =>
      intro hr
      obtain rfl := Option.some.inj hr
      exact b.advance_ne_crashed ha

theorem start_ne_crashed {p : Provisioner} (hp : ∀ i, p i ≠ .crashed) :
    b.start p ≠ .error .provisioningCrashed := by
  by_cases hi : b.phase = .init
  · simp [start_of_init hi, hp]
  · rw [start_of_started hi]
    exact nofun

end Broker

/-- A simulation breaks down only if one of the creation requests does. -/
theorem SimulatesTo.ne_crashed {w : Workflow} (hw : w.Valid) {policy : Policy}
    {settings : Settings} {p : Provisioner} (hp : ∀ i, p i ≠ .crashed) {e : Error}
    (h : SimulatesTo w policy settings p (.error e)) : e ≠ .provisioningCrashed := by
  rintro rfl
  obtain ⟨events, h⟩ := h
  obtain ⟨g, hg, hd, hpre⟩ := hw.graph_ok settings.lengthScale
  obtain ⟨s, hs, -⟩ := Scheduler.new_ok hd.wellFormed hpre policy
  have hb := Workflow.broker_eq_ok_iff.mpr ⟨g, hg, s, hs, rfl⟩
  rw [simulate?_of_broker hb, Broker.run?] at h
  split at h
  · rename_i e hstart
    obtain rfl := Except.error.inj (Option.some.inj h)
    exact Broker.start_ne_crashed _ hp hstart
  · rename_i c _
    exact c.runFor_ne_crashed events h

end Makespan
