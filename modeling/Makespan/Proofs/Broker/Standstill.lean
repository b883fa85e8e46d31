import Makespan.Proofs.Broker.Kept

/-! Runs that come to a standstill, and runs that end. A tick that has nothing to do changes nothing but
the time of the next tick; where adding the delay does not change the time either, the same tick
comes again and again. This is the only way in which a run can go on without end: any other event
either works off a part of what is to be done or brings the timer nearer to the last time there is. -/

namespace Makespan

namespace Broker

/-- A broker with work left whose next event is a tick that has no task for any worker, and comes
again at the same time. -/
structure Standstill (b : Broker) : Prop where
  work : b.scheduler.hasWork = true
  unpaired : b.scheduler.queue ++ b.scheduler.arrivals = [] ∨ b.pool.idle = []
  tick : ∃ time rest, b.events.pending = (time, .nextCycle) :: rest ∧ time + b.cycleDelay = time

variable {created : WorkerId → Bool} {b c : Broker} {log log' : List Assignment}
  {timer : Time × Event}

/-! ## Ticks -/

theorem queue_beginCycle_eq_nil_iff (b : Broker) :
    b.beginCycle.scheduler.queue = [] ↔ b.scheduler.queue ++ b.scheduler.arrivals = [] := by
  have hperm := Scheduler.order_perm b.scheduler.policy b.scheduler.graph
    (b.scheduler.queue ++ b.scheduler.arrivals)
  rw [← List.length_eq_zero_iff, ← List.length_eq_zero_iff, ← hperm.length_eq]
  rfl

namespace Steady

variable {time : Time} {rest : List (Time × Event)}

/-- A tick without a task for any worker only sets the timer again. -/
theorem advance_of_unpaired (h : Steady created b log (time, .nextCycle))
    (hp : b.events.pending = (time, .nextCycle) :: rest)
    (hu : b.scheduler.queue ++ b.scheduler.arrivals = [] ∨ b.pool.idle = []) :
    b.advance = settled ({ b with clock := time, events := ⟨rest⟩ }.beginCycle).rearm := by
  refine h.advance_of_served hp ?_
  rcases hu with hq | hi
  · refine dispatchAll_of_empty ?_ _
    exact (queue_beginCycle_eq_nil_iff { b with clock := time, events := ⟨rest⟩ }).mpr hq
  · rw [hi]
    rfl

/-- Any other tick assigns a task: what each assignment keeps holds when the timer is to be set
again. -/
theorem tick_induct_of_paired (h : Steady created b log (time, .nextCycle))
    (hp : b.events.pending = (time, .nextCycle) :: rest)
    (hu : ¬ (b.scheduler.queue ++ b.scheduler.arrivals = [] ∨ b.pool.idle = []))
    {I : Broker → List Assignment → Prop}
    (hI : ∀ c log task rest w, InCycle created c log → I c log → c.scheduler.queue = task :: rest →
      c.CanTake w → I (c.assign ⟨c.clock, task, w⟩) (log ++ [⟨c.clock, task, w⟩]))
    (h₀ : I { b with clock := time, events := ⟨rest⟩ }.beginCycle log) :
    ∃ c log', b.advance = settled c.rearm ∧ InCycle created c log' ∧ SameSetup b c ∧
      log.length < log'.length ∧ I c log' := by
  obtain ⟨hq, hi⟩ := not_or.mp hu
  let d : Broker := { b with clock := time, events := ⟨rest⟩ }
  have hin : InCycle created d.beginCycle log := .beginCycle h hp
  have hnumbered := h.flight.accounted.pool.numbered
  have hidle : ∀ w ∈ b.pool.idle, d.beginCycle.CanTake w := fun w hw => hnumbered.mem_idle_iff.mp hw
  have hnodup := hnumbered.idle_nodup
  cases hws : b.pool.idle with
  | nil => exact absurd hws hi
  | cons w ws =>
    rw [hws] at hidle hnodup
    obtain ⟨hnw, hn⟩ := List.nodup_cons.mp hnodup
    have hw : d.beginCycle.CanTake w := hidle w (by simp)
    cases htasks : d.beginCycle.scheduler.queue with
    | nil => exact absurd ((queue_beginCycle_eq_nil_iff d).mp htasks) hq
    | cons task tasks =>
      have hrest : ∀ v ∈ ws, (d.beginCycle.assign ⟨d.beginCycle.clock, task, w⟩).CanTake v :=
        fun v hv => (hidle v (List.mem_cons_of_mem w hv)).assign hw (fun he => hnw (he ▸ hv)) task
      obtain ⟨c, log', hc, hin', hsetup, hlen, hIc⟩ := (hin.assign htasks hw).serve hn hrest
        (I := fun c log' => log.length < log'.length ∧ I c log')
        (fun c log' task rest w hc ⟨hlen, hIc⟩ hq hw =>
          ⟨hlen.trans (by rw [List.length_append]; exact Nat.lt_succ_self _),
            hI c log' task rest w hc hIc hq hw⟩)
        ⟨by rw [List.length_append]; exact Nat.lt_succ_self _, hI _ _ _ _ _ hin h₀ htasks hw⟩
      have hserved : d.beginCycle.dispatchAll b.pool.idle = ⟨c, none⟩ := by
        rw [hws, dispatchAll_cons hw htasks]
        exact hc
      exact ⟨c, log', h.advance_of_served hp hserved, hin',
        (((SameSetup.at_event b time ⟨rest⟩).trans (.beginCycle d)).trans
          (.assign d.beginCycle _)).trans hsetup, hlen, hIc⟩

end Steady

/-! ## A standstill stays -/

theorem Standstill.advance (hs : Standstill b) (h : Steady created b log timer)
    (hfree : ∀ c, SameSetup b c → ¬ Stuck created c log) :
    ∃ c timer', b.advance = .running c ∧ Steady created c log timer' ∧ SameSetup b c ∧
      Standstill c := by
  obtain ⟨time, rest, hp, hstill⟩ := hs.tick
  obtain rfl : timer = (time, .nextCycle) := by
    rcases h.flight.next_cases hp with hm | ⟨a, -, ha⟩
    · exact (List.mem_singleton.mp hm).symm
    · cases ha
  let d : Broker := { b with clock := time, events := ⟨rest⟩ }
  have hin : InCycle created d.beginCycle log := .beginCycle h hp
  have hsetup : SameSetup b d.beginCycle := (SameSetup.at_event b time ⟨rest⟩).trans (.beginCycle d)
  have hwork : d.beginCycle.scheduler.hasWork = true := hs.work
  have hnext : d.beginCycle.clock + d.beginCycle.cycleDelay = time := hstill
  rw [h.advance_of_unpaired hp hs.unpaired, hin.settled_rearm, if_neg (by rw [hwork]; simp),
    if_neg (fun hidle => hfree _ hsetup ⟨hin, hwork, hidle.1, hidle.2⟩)]
  refine ⟨_, _, rfl, hin.steady_of_rearmed, hsetup.trans (.schedule _ _ _), hwork, ?_, time, rest,
    ?_, hstill⟩
  · refine hs.unpaired.imp (fun hq => ?_) id
    have hq := (queue_beginCycle_eq_nil_iff d).mpr hq
    show d.beginCycle.scheduler.queue ++ [] = []
    rw [hq]
    rfl
  · show EventQueue.place _ .nextCycle rest = _
    rw [hnext]
    -- what is left is due after the tick, so that the next tick comes before it again
    have hord := h.timely.ordered
    rw [hp, List.pairwise_cons] at hord
    cases rest with
    | nil => rfl
    | cons e rest =>
      have hlater := (hord.1 e (by simp)).2 rfl
      unfold EventQueue.place
      rw [if_neg (not_le.mpr hlater)]

/-- A run at a standstill never ends. -/
theorem Standstill.progress (hs : Standstill b) (h : Steady created b log timer)
    (hfree : ∀ c, SameSetup b c → ¬ Stuck created c log) (n : Nat) :
    ∃ c, b.progress n = .running c := by
  induction n generalizing b timer with
  | zero => exact ⟨b, rfl⟩
  | succ n ih =>
    obtain ⟨c, timer', hadv, hc, hsetup, hs'⟩ := hs.advance h hfree
    rw [progress_of_running hadv]
    exact ih hs' hc fun d hd => hfree d (hsetup.trans hd)

/-! ## Without a standstill all is worked off -/

/-- How many tasks are to be assigned and how many to be finished. -/
def backlog (b : Broker) (log : List Assignment) : Nat :=
  (b.scheduler.graph.size - log.length) + (b.scheduler.graph.size - b.scheduler.executedCount)

/-- How far a timer is from the last time there is. -/
def timeLeft (timer : Time × Event) : Nat :=
  if timer.2 = .nextCycle then Binary64.infinityCode + 1 - timer.1.code else 0

/-- What each event but an idle tick at a standstill brings down. -/
def toGo (b : Broker) (log : List Assignment) (timer : Time × Event) : Nat × Nat :=
  (b.backlog log, timeLeft timer)

/-- The order in which the work comes first. -/
abbrev Less : Nat × Nat → Nat × Nat → Prop := Prod.Lex (· < ·) (· < ·)

theorem Accounted.length_le (h : b.Accounted log) : log.length ≤ b.scheduler.graph.size := by
  have hsub : log.map (·.task) ⊆ List.range b.scheduler.graph.size := by
    intro k hk
    obtain ⟨a, ha, rfl⟩ := List.mem_map.mp hk
    exact List.mem_range.mpr (h.task_lt ha)
  have hle := (List.subperm_of_subset h.tasks_nodup hsub).length_le
  rwa [List.length_map, List.length_range] at hle

/-- What was given out is no longer to be assigned. -/
theorem Accounted.backlog_lt (h : c.Accounted log') (hsetup : SameSetup b c)
    (hlen : log.length < log'.length)
    (hcount : c.scheduler.executedCount = b.scheduler.executedCount) :
    c.backlog log' < b.backlog log := by
  have hle := h.length_le
  rw [hsetup.graph] at hle
  unfold backlog
  rw [hsetup.graph, hcount]
  omega

theorem Accounted.backlog_complete_lt (h : b.Accounted log) {a : Assignment}
    (ha : a ∈ b.unfinished log) : (b.complete a).backlog log < b.backlog log := by
  have hwork : b.scheduler.executedCount < b.scheduler.graph.size := by
    simpa [Scheduler.hasWork] using h.hasWork ha
  show _ + (b.scheduler.graph.size - (b.scheduler.executedCount + 1)) < b.backlog log
  unfold backlog
  exact Nat.add_lt_add_left (by omega) _

/-- A later tick has less time left. -/
theorem timeLeft_lt {time time' : Time} (ht : time.NonNegative) (ht' : time'.NonNegative)
    (hlt : time.rank < time'.rank) :
    timeLeft (time', .nextCycle) < timeLeft (time, .nextCycle) := by
  rw [ht.rank, ht'.rank] at hlt
  have hcode : time.code < time'.code := by exact_mod_cast hlt
  have hle := ht'.number
  simp only [timeLeft, if_true]
  omega

/-- What is left to do after a cycle, which the timer decides if no task was assigned. -/
theorem InCycle.settled_less (h : InCycle created c log') {old : Nat × Nat}
    (hdone : c.scheduler.hasWork = false → Less (c.backlog log', 0) old)
    (hrearmed : c.scheduler.hasWork = true →
      Less (c.backlog log', timeLeft (c.clock + c.cycleDelay, .nextCycle)) old) :
    (∃ result, settled c.rearm = .ended result) ∨
      ∃ d timer', settled c.rearm = .running d ∧ Steady created d log' timer' ∧
        Less (d.toGo log' timer') old := by
  rw [h.settled_rearm]
  by_cases hw : c.scheduler.hasWork = false
  · rw [if_pos hw]
    exact Or.inr ⟨_, _, rfl, h.steady_of_done hw, hdone hw⟩
  · rw [if_neg hw]
    by_cases hs : c.pool.busy = 0 ∧ c.scheduler.queue = []
    · rw [if_pos hs]
      exact Or.inl ⟨_, rfl⟩
    · rw [if_neg hs]
      exact Or.inr ⟨_, _, rfl, h.steady_of_rearmed, hrearmed (by simpa using hw)⟩

namespace Steady

variable {time : Time} {rest : List (Time × Event)}

/-- A tick that is no standstill gives out work, or the next one is later. -/
theorem advance_tick_less (h : Steady created b log (time, .nextCycle))
    (hp : b.events.pending = (time, .nextCycle) :: rest) (hmoves : ¬ Standstill b) :
    (∃ result, b.advance = .ended result) ∨
      ∃ c log' timer', b.advance = .running c ∧ Steady created c log' timer' ∧
        Less (c.toGo log' timer') (b.toGo log (time, .nextCycle)) := by
  by_cases hu : b.scheduler.queue ++ b.scheduler.arrivals = [] ∨ b.pool.idle = []
  · let d : Broker := { b with clock := time, events := ⟨rest⟩ }
    have hin : InCycle created d.beginCycle log := .beginCycle h hp
    have hn : time.NonNegative := hin.timely.clock
    obtain ⟨hn', hle⟩ := hn.add h.timely.paced.delay
    rw [h.advance_of_unpaired hp hu]
    refine (hin.settled_less ?_ ?_).imp id fun ⟨c, timer', hc⟩ => ⟨c, log, timer', hc⟩
    · intro _
      refine Prod.Lex.right _ ?_
      have hnumber := hn.number
      simp only [timeLeft, if_true]
      omega
    · intro hw
      refine Prod.Lex.right _ (timeLeft_lt hn hn' ?_)
      refine lt_of_le_of_ne hle fun he => hmoves ⟨hw, hu, time, rest, hp, ?_⟩
      exact (Binary64.rank_injective he).symm
  · obtain ⟨c, log', hadv, hin, hsetup, hlen, hcount⟩ := h.tick_induct_of_paired hp hu
      (I := fun c _ => c.scheduler.executedCount = b.scheduler.executedCount)
      (fun _ _ _ _ _ _ hc _ _ => hc) rfl
    have hless := hin.flight.accounted.backlog_lt hsetup hlen hcount
    rw [hadv]
    exact (hin.settled_less (fun _ => .left _ _ hless) fun _ => .left _ _ hless).imp id
      fun ⟨d, timer', hd⟩ => ⟨d, log', timer', hd⟩

/-- An event brings down what is to go, unless the run ends or is at a standstill. -/
theorem advance_less (h : Steady created b log timer) (hmoves : ¬ Standstill b) :
    (∃ result, b.advance = .ended result) ∨
      ∃ c log' timer', b.advance = .running c ∧ Steady created c log' timer' ∧
        Less (c.toGo log' timer') (b.toGo log timer) := by
  obtain ⟨e, rest, hp, rfl | ⟨a, ha, rfl⟩⟩ := h.exists_next
  · obtain ⟨time, event⟩ := e
    rcases h.timer_cases with rfl | ⟨rfl, -⟩
    · exact h.advance_tick_less hp hmoves
    · rw [h.advance_of_end hp, settle_terminate]
      exact Or.inl ⟨_, rfl⟩
  · exact Or.inr ⟨_, log, timer, h.advance_of_completion ha hp, h.complete ha hp,
      .left _ _ (h.flight.accounted.backlog_complete_lt ha)⟩

/-- A run that never comes to a standstill ends. -/
theorem ends (h : Steady created b log timer)
    (hmoves : ∀ n c, b.progress n = .running c → ¬ Standstill c) :
    ∃ n result, b.progress n = .ended result := by
  have hwf : WellFounded Less := WellFounded.prod_lex Nat.lt_wfRel.wf Nat.lt_wfRel.wf
  -- induction on what is to go, the work first
  induction hm : b.toGo log timer using hwf.induction generalizing b log timer with
  | _ m ih =>
    subst hm
    rcases h.advance_less (hmoves 0 b rfl) with ⟨result, hadv⟩ | ⟨c, log', timer', hadv, hc, hless⟩
    · exact ⟨1, result, progress_of_ended hadv 0⟩
    · have hlater : ∀ n d, c.progress n = .running d → ¬ Standstill d := by
        intro n d hd
        exact hmoves (n + 1) d (by rw [progress_of_running hadv, hd])
      obtain ⟨n, result, hn⟩ := ih _ hless hc hlater rfl
      exact ⟨n + 1, result, by rw [progress_of_running hadv, hn]⟩

end Steady

/-! ## Provisioning takes one event for each worker -/

theorem Provisioning.settles {n : Nat} (h : Provisioning created b n) (hn : n < b.pool.size) :
    ∃ m, (∃ result, b.progress m = .ended result) ∨
      ∃ c, b.progress m = .running c ∧ Steady created c [] (.zero, .nextCycle) := by
  induction hk : b.pool.size - n generalizing b n with
  | zero => omega
  | succ k ih =>
    have hd : Provisioning created (b.answerNext created n) (n + 1) := h.answerNext hn
    have hsize : (b.answerNext created n).pool.size = b.pool.size :=
      (SameSetup.answerNext b created n).size
    have hadv := h.advance_eq hn
    by_cases hmore : n + 1 < b.pool.size
    · rw [if_pos hmore] at hadv
      obtain ⟨m, hm⟩ := ih hd (hsize ▸ hmore) (by omega)
      exact ⟨m + 1, by rwa [progress_of_running hadv]⟩
    · rw [if_neg hmore] at hadv
      by_cases hu : (b.answerNext created n).pool.usable = 0
      · rw [if_pos hu] at hadv
        exact ⟨1, Or.inl ⟨_, progress_of_ended hadv 0⟩⟩
      · have hlast : n + 1 = (b.answerNext created n).pool.size := by omega
        rw [hlast] at hd
        rw [if_neg hu] at hadv
        exact ⟨1, Or.inr ⟨_, progress_of_running hadv 0, hd.steady⟩⟩

/-- A run ends exactly if it never comes to a standstill, unless its tasks wait for each other. -/
theorem Standing.ends_iff (h : Standing created b [])
    (hfree : ∀ c log, SameSetup b c → ¬ Stuck created c log) :
    (∃ n result, b.progress n = .ended result) ↔
      ∀ n c, b.progress n = .running c → ¬ Standstill c := by
  constructor
  · intro ⟨m, result, hm⟩ n c hc hs
    have hkept := (Kept.sameSetup created b).progress h (.refl b) n
    rw [hc] at hkept
    cases hkept with
    | @running _ log standing hsetup =>
      have hforever : ∀ k, ∃ d, c.progress k = .running d := by
        cases standing with
        | provisioning lt hprov =>
          obtain ⟨time, rest, hp, -⟩ := hs.tick
          rw [hprov.next lt] at hp
          cases hp
        | steady hsteady =>
          exact hs.progress hsteady fun d hd => hfree d log (hsetup.trans hd)
      obtain ⟨d, hd⟩ := hforever m
      rw [← progress_add hc, Nat.add_comm, progress_add_of_ended hm] at hd
      cases hd
  · intro hmoves
    have hsteady : ∀ {c log timer} m, b.progress m = .running c → Steady created c log timer →
        ∃ n result, b.progress n = .ended result := by
      intro c log timer m hm hc
      obtain ⟨n, result, hn⟩ :=
        hc.ends fun n d hd => hmoves (m + n) d ((progress_add hm n).trans hd)
      exact ⟨m + n, result, (progress_add hm n).trans hn⟩
    cases h with
    | provisioning lt hprov =>
      obtain ⟨m, ⟨result, hm⟩ | ⟨c, hm, hc⟩⟩ := hprov.settles lt
      · exact ⟨m, result, hm⟩
      · exact hsteady m hm hc
    | steady hc => exact hsteady 0 rfl hc

end Broker

end Makespan
