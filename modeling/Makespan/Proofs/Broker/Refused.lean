import Makespan.Proofs.Broker.Dependencies

/-! Completions that are refused. One that comes in the wrong phase, or for a worker that holds
nothing, changes nothing. But one that names another task than the worker holds is refused only after
the worker was freed: the task that it held is lost then, and the work will never be done. -/

namespace Makespan.Broker

variable {b : Broker} {log : List Assignment} {k : TaskKey}

/-- A completion of a task would come while the worker holds another one. -/
def Mistaken (b : Broker) (w : WorkerId) (task held : TaskKey) : Prop :=
  b.phase = .scheduling ∧ b.pool.holds? w = some held ∧ held ≠ task

theorem step_taskFinished_of_ne (h : b.phase ≠ .scheduling) (w : WorkerId) (task : TaskKey)
    (started : Time) : b.step (.taskFinished w task started) =
      ⟨b, some (.invalidTransition b.phase .taskFinished)⟩ := by
  cases hp : b.phase with
  | scheduling => exact absurd hp h
  | _ => simp only [step, hp, Event.request]

/-- What a completion comes to. -/
theorem Accounted.step_taskFinished_cases (h : b.Accounted log) (w : WorkerId) (task : TaskKey)
    (started : Time) :
    (∃ e, b.step (.taskFinished w task started) = ⟨b, some e⟩ ∧ ∀ held, ¬ b.Mistaken w task held) ∨
    (∃ held, b.Mistaken w task held ∧ b.step (.taskFinished w task started) =
      ⟨b.free w, some (.otherTaskHeld w task held)⟩) ∨
    (b.phase = .scheduling ∧ b.pool.holds? w = some task ∧
      b.step (.taskFinished w task started) = ⟨b.complete ⟨started, task, w⟩, none⟩) := by
  by_cases hp : b.phase = .scheduling
  · rw [step_taskFinished hp]
    cases hw : b.pool.holds? w with
    | none =>
      refine Or.inl ⟨_, handleFinished_of_free hw task started, ?_⟩
      rintro held ⟨-, hheld, -⟩
      rw [hw] at hheld
      cases hheld
    | some held =>
      by_cases he : held = task
      · subst he
        exact Or.inr (Or.inr ⟨hp, rfl,
          handleFinished_of_held hw (h.pool.held_unexecuted w held hw) started⟩)
      · exact Or.inr (Or.inl ⟨held, ⟨hp, hw, he⟩, handleFinished_of_other hw he started⟩)
  · exact Or.inl ⟨_, step_taskFinished_of_ne hp w task started, fun held hm => hp hm.1⟩

/-- What a worker holds can be completed. -/
theorem Accounted.completes (h : b.Accounted log) (hp : b.phase = .scheduling) {w : WorkerId}
    (hw : b.pool.holds? w = some k) (started : Time) :
    (b.step (.taskFinished w k started)).error? = none := by
  rw [step_taskFinished hp, handleFinished_of_held hw (h.pool.held_unexecuted w k hw)]

/-! ## Lost tasks -/

/-- A task that was given out and is not finished, though nobody holds it. -/
structure Lost (b : Broker) (k : TaskKey) : Prop where
  given : ∃ log, b.Accounted log ∧ ∃ a ∈ log, a.task = k
  unexecuted : b.scheduler.isExecuted k = false
  unheld : ∀ w, b.pool.holds? w ≠ some k

theorem Accounted.lost_of_free (h : b.Accounted log) {w : WorkerId}
    (hw : b.pool.holds? w = some k) : Lost (b.free w) k where
  given := by
    obtain ⟨a, ha, hk, -⟩ := h.pool.held_logged w k hw
    exact ⟨log, h.free hw, a, ha, hk⟩
  unexecuted := h.pool.held_unexecuted w k hw
  unheld v hv := by
    obtain ⟨hne, hv⟩ := (Pool.holds?_setRunning_none hw).mp hv
    exact hne (h.pool.held_once v w k hv hw)

namespace Lost

theorem hasWork (h : Lost b k) : b.scheduler.hasWork = true := by
  obtain ⟨log, hacc, a, ha, rfl⟩ := h.given
  exact hacc.scheduler.hasWork_iff.mpr ⟨a.task, hacc.task_lt ha, h.unexecuted⟩

/-- Nothing is given out before the scheduling begins, and it does not end while work is left. -/
theorem phase (h : Lost b k) : b.phase = .scheduling := by
  obtain ⟨log, hacc, a, ha, -⟩ := h.given
  cases hp : b.phase with
  | scheduling => rfl
  | terminated =>
    have hdone := hacc.all_done hp
    rw [h.hasWork] at hdone
    cases hdone
  | init =>
    rw [hacc.nothing_yet (Or.inl hp)] at ha
    cases ha
  | provisioning =>
    rw [hacc.nothing_yet (Or.inr hp)] at ha
    cases ha

/-- Where the assignments stay as they are, it matters only what is executed and held. -/
theorem of_accounted (h : Lost b k) {c : Broker} (hacc : ∀ log, b.Accounted log → c.Accounted log)
    (hx : c.scheduler.isExecuted k = false) (hheld : ∀ w, c.pool.holds? w ≠ some k) : Lost c k := by
  obtain ⟨log, hb, hk⟩ := h.given
  exact ⟨⟨log, hacc log hb, hk⟩, hx, hheld⟩

theorem schedule (h : Lost b k) (time : Time) (event : Event) : Lost (b.schedule time event) k :=
  h.of_accounted (fun _ hb => hb.schedule time event) h.unexecuted h.unheld

theorem beginCycle (h : Lost b k) : Lost b.beginCycle k :=
  h.of_accounted (fun _ hb => hb.beginCycle) h.unexecuted h.unheld

/-- It is not given out again. -/
theorem assign (h : Lost b k) {task : TaskKey} {rest : List TaskKey}
    (hq : b.scheduler.queue = task :: rest) {w : WorkerId} (hw : b.CanTake w) :
    Lost (b.assign ⟨b.clock, task, w⟩) k := by
  have hp := h.phase
  obtain ⟨log, hacc, a, ha, rfl⟩ := h.given
  refine ⟨⟨_, hacc.assign hp hq hw, a, List.mem_append_left _ ha, rfl⟩, h.unexecuted,
    fun v hv => ?_⟩
  have hv : (b.pool.setRunning w (some task)).holds? v = some a.task := hv
  rw [Pool.holds?_setRunning (Pool.lt_of_status? hw.1)] at hv
  split at hv
  · exact hacc.head_new hq a ha (Option.some.inj hv).symm
  · exact h.unheld v hv

theorem free (h : Lost b k) {w : WorkerId} {held : TaskKey} (hw : b.pool.holds? w = some held) :
    Lost (b.free w) k :=
  h.of_accounted (fun _ hb => hb.free hw) h.unexecuted fun v hv =>
    h.unheld v ((Pool.holds?_setRunning_none hw).mp hv).2

/-- Only what is held can be completed. -/
theorem complete (h : Lost b k) {w : WorkerId} {task : TaskKey}
    (hw : b.pool.holds? w = some task) (started : Time) :
    Lost (b.complete ⟨started, task, w⟩) k := by
  refine h.of_accounted (fun _ hb => hb.complete h.phase hw started) ?_ (h.free hw).unheld
  obtain ⟨log, hb, -⟩ := h.given
  by_contra hx
  rcases (Scheduler.isExecuted_finish (hb.scheduler.executed_size ▸ hb.held_lt hw) k).mp
    (Bool.eq_true_of_not_eq_false hx) with rfl | hx
  · exact h.unheld w hw
  · rw [h.unexecuted] at hx
    cases hx

theorem rearm (h : Lost b k) : Lost b.rearm.broker k := by
  rw [rearm_eq]
  split
  · exact h
  · split
    · exact h
    · exact h.schedule _ _

theorem step (h : Lost b k) (event : Event) : Lost (b.step event).broker k := by
  obtain ⟨log, hacc, -⟩ := h.given
  cases event with
  | workerCreated w created =>
    simp only [Broker.step, h.phase]
    exact h
  | nextCycle =>
    rw [step_nextCycle h.phase]
    obtain ⟨c, hc, hlost⟩ := handleCycle_induct hacc.pool.numbered (I := (Lost · k))
      (fun c task rest w hc hq hw => hc.assign hq hw) h.beginCycle
    rw [hc]
    exact hlost.rearm
  | taskFinished w task started =>
    rcases hacc.step_taskFinished_cases w task started with
      ⟨e, ho, -⟩ | ⟨held, ⟨-, hw, -⟩, ho⟩ | ⟨-, hw, ho⟩
    · rw [ho]
      exact h
    · rw [ho]
      exact h.free hw
    · rw [ho]
      exact h.complete hw started
  | endOfSimulation =>
    rw [step_endOfSimulation h.phase, handleEnd_eq, if_pos h.hasWork]
    exact h

theorem call (h : Lost b k) (c : Call) : Lost (b.call c).broker k := by
  cases c with
  | step event => exact h.step event
  | start created =>
    rw [Broker.call, start_of_started (by rw [h.phase]; simp)]
    exact h

/-- What is lost stays lost. -/
theorem after (h : Lost b k) (calls : List Call) : Lost (b.after calls) k :=
  after_induct (I := (Lost · k)) (fun _ c hb => hb.call c) h calls

end Lost

/-- Refused completions, for every graph and policy and after any calls. One that does not name
another task than its worker holds leaves the broker as it was; one that does frees the worker and
changes nothing else, but whatever comes then, the task is never executed and the broker does not
terminate. What is held afterwards can be completed. -/
theorem refused_completions (ds : List Graph.Declaration) (policy : Policy) :
    ∃ s, Scheduler.new (.ofDeclarations ds) policy = .ok s ∧
      ∀ (label : String) (tiers : List Tier) (delay : Time) (calls : List Call),
        let b := (new label s tiers delay).after calls
        ∀ w task started e, (b.step (.taskFinished w task started)).error? = some e →
          let c := (b.step (.taskFinished w task started)).broker
          ((∀ held, ¬ b.Mistaken w task held) → c = b) ∧
          (∀ held, b.Mistaken w task held → e = .otherTaskHeld w task held ∧ c = b.free w ∧
            ∀ more, (c.after more).scheduler.isExecuted held = false ∧
              (c.after more).phase ≠ .terminated) ∧
          ∀ v k s', b.phase = .scheduling → c.pool.holds? v = some k →
            (c.step (.taskFinished v k s')).error? = none := by
  obtain ⟨s, hs, -, hn⟩ := new_accounted_of_declarations ds policy
  refine ⟨s, hs, fun label tiers delay calls => ?_⟩
  intro b w task started e he c
  obtain ⟨⟨log, hacc⟩, -⟩ := (hn label tiers delay).after calls
  have h : b.Accounted log := hacc
  have hcompletes : ∀ {log}, c.Accounted log → c.phase = b.phase → ∀ v k s',
      b.phase = .scheduling → c.pool.holds? v = some k →
        (c.step (.taskFinished v k s')).error? = none :=
    fun hc hphase v k s' hp hv => hc.completes (hphase.trans hp) hv s'
  rcases h.step_taskFinished_cases w task started with ⟨e', ho, hno⟩ | ⟨held, hm, ho⟩ | ⟨-, -, ho⟩
  · have hc : c = b := congrArg Outcome.broker ho
    refine ⟨fun _ => hc, fun held hm => absurd hm (hno held), ?_⟩
    exact hcompletes (hc.symm ▸ h) (by rw [hc])
  · have hc : c = b.free w := congrArg Outcome.broker ho
    have hw := hm.2.1
    have herror : e = .otherTaskHeld w task held := by
      rw [ho] at he
      exact (Option.some.inj he).symm
    refine ⟨fun hno => absurd hm (hno held), fun held' hm' => ?_, ?_⟩
    · obtain rfl : held = held' := Option.some.inj (hw.symm.trans hm'.2.1)
      refine ⟨herror, hc, fun more => ?_⟩
      have hlost := (hc ▸ h.lost_of_free hw : Lost c held).after more
      exact ⟨hlost.unexecuted, by rw [hlost.phase]; simp⟩
    · exact hcompletes (hc.symm ▸ h.free hw) (by rw [hc]; rfl)
  · rw [ho] at he
    cases he

/-- Two tasks, one after the other. -/
def chain : List Graph.Declaration :=
  [.task (.new "a" "" "" 1 1), .task (.new "b" "" "" 1 1), .dependency "b" ["a"]]

/-- A broker that has given the first task to its only worker. -/
def underWay (s : Scheduler) : Broker :=
  (new "chain" s [⟨1, 1⟩] 1).after
    [.start fun _ => true, .step (.workerCreated 0 true), .step .nextCycle]

/-- The worker holds the first task, and a completion of the second is refused; but then the worker
holds nothing, and the completion of the first is refused too. -/
theorem mistaken_completion_frees_worker : ∃ s,
    Scheduler.new (.ofDeclarations chain) .shortestFirst = .ok s ∧
      let o := (underWay s).step (.taskFinished 0 1 .zero)
      o.error? = some (.otherTaskHeld 0 1 0) ∧ o.broker.pool ≠ (underWay s).pool ∧
        ((underWay s).step (.taskFinished 0 0 .zero)).error? = none ∧
        (o.broker.step (.taskFinished 0 0 .zero)).error? = some (.nothingHeld 0) := by
  obtain ⟨s, hs, -⟩ := new_accounted_of_declarations chain .shortestFirst
  have hrun : (Scheduler.new (.ofDeclarations chain) .shortestFirst).toOption.map (fun s =>
      let o := (underWay s).step (.taskFinished 0 1 .zero)
      (o.error?, (underWay s).pool.holds? 0, o.broker.pool.holds? 0,
        ((underWay s).step (.taskFinished 0 0 .zero)).error?,
        (o.broker.step (.taskFinished 0 0 .zero)).error?)) =
      some (some (.otherTaskHeld 0 1 0), some 0, none, none, some (.nothingHeld 0)) := by
    decide +kernel
  rw [hs] at hrun
  have hall := Option.some.inj hrun
  simp only [Prod.mk.injEq] at hall
  obtain ⟨herror, hheld, hfreed, hcompletes, hlost⟩ := hall
  refine ⟨s, hs, herror, fun hpool => ?_, hcompletes, hlost⟩
  rw [hpool, hheld] at hfreed
  cases hfreed

end Makespan.Broker
