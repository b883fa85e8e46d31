import Makespan.Proofs.Broker.Run

/-! What every change keeps, a whole run keeps. A run is made of seven kinds of changes, and each of
them is made in a state that is known well; a property that all of them keep holds wherever a run
stands. -/

namespace Makespan.Broker

/-- A property of brokers and the assignments made so far that every change in the course of a run
keeps. -/
structure Kept (created : WorkerId → Bool) (I : Broker → List Assignment → Prop) : Prop where
  answer : ∀ {b n}, Provisioning created b n → n < b.pool.size → I b [] →
    I (b.answerNext created n) []
  opened : ∀ {b}, Provisioning created b b.pool.size → I b [] → I b.beginScheduling []
  tick : ∀ {b log time rest}, Steady created b log (time, .nextCycle) →
    b.events.pending = (time, .nextCycle) :: rest → I b log →
      I { b with clock := time, events := ⟨rest⟩ }.beginCycle log
  assign : ∀ {b log task rest w}, InCycle created b log → b.scheduler.queue = task :: rest →
    b.CanTake w → I b log → I (b.assign ⟨b.clock, task, w⟩) (log ++ [⟨b.clock, task, w⟩])
  rearmed : ∀ {b log}, InCycle created b log → b.scheduler.hasWork = true → I b log →
    I (b.schedule (b.clock + b.cycleDelay) .nextCycle) log
  done : ∀ {b log}, InCycle created b log → b.scheduler.hasWork = false → I b log →
    I (b.schedule b.clock .endOfSimulation) log
  complete : ∀ {b log timer a rest}, Steady created b log timer → a ∈ b.unfinished log →
    b.events.pending = b.notice a :: rest → I b log →
      I ({ b with clock := b.due a, events := ⟨rest⟩ }.complete a) log
  terminate : ∀ {b log time rest}, Steady created b log (time, .endOfSimulation) →
    b.events.pending = (time, .endOfSimulation) :: rest → I b log →
      I { b with clock := time, events := ⟨rest⟩ }.terminate log

variable {created : WorkerId → Bool} {I : Broker → List Assignment → Prop} {b : Broker}
  {log : List Assignment}

/-- A broker between two events of its run. -/
inductive Standing (created : WorkerId → Bool) : Broker → List Assignment → Prop
  | provisioning {b : Broker} {n : Nat} (lt : n < b.pool.size) (h : Provisioning created b n) :
      Standing created b []
  | steady {b : Broker} {log : List Assignment} {timer : Time × Event}
      (h : Steady created b log timer) : Standing created b log

theorem Course.standing {b₀ : Broker} (h : Course created b₀ (.running b))
    (hp : b.phase = .provisioning) : Standing created b [] := by
  cases h with
  | provisioning setup lt h => exact .provisioning lt h
  | steady setup some_created h =>
    rw [h.flight.phase] at hp
    cases hp

/-- A report is given of a run that has come to its end. -/
theorem report_eq_ok {r : Report} (h : b.report = .ok r) :
    b.finishTime = some r.makespan ∧ r.trace = b.trace := by
  unfold report at h
  split at h
  · cases h
  · rename_i makespan hfinish
    obtain rfl := Except.ok.inj h
    exact ⟨hfinish, rfl⟩

theorem trace_of_report {r : Report} (h : b.report = .ok r) : r.trace = b.trace :=
  (report_eq_ok h).2

/-- A run stands where a property holds, or has left it by a failure. -/
inductive Progress.Holding (created : WorkerId → Bool) (I : Broker → List Assignment → Prop) :
    Progress → Prop
  | running {b : Broker} {log : List Assignment} (standing : Standing created b log)
      (h : I b log) : Holding created I (.running b)
  | failed (e : Error) : Holding created I (.ended (.error e))
  | finished {b : Broker} {log : List Assignment} {r : Report} (h : I b log)
      (report : b.report = .ok r) : Holding created I (.ended (.ok r))

namespace Kept

theorem sameSetup (created : WorkerId → Bool) (b₀ : Broker) :
    Kept created fun b _ => SameSetup b₀ b where
  answer _ _ hb := hb.trans (.answerNext _ _ _)
  opened _ hb := hb.trans (.beginScheduling _)
  tick _ _ hb := (hb.trans (.at_event _ _ _)).trans (.beginCycle _)
  assign _ _ _ hb := hb.trans (.assign _ _)
  rearmed _ _ hb := hb.trans (.schedule _ _ _)
  done _ _ hb := hb.trans (.schedule _ _ _)
  complete _ _ _ hb := (hb.trans (.at_event _ _ _)).trans (.complete _ _)
  terminate _ _ hb := (hb.trans (.at_event _ _ _)).trans (.terminate _)

theorem and {J : Broker → List Assignment → Prop} (hI : Kept created I) (hJ : Kept created J) :
    Kept created fun b log => I b log ∧ J b log where
  answer h hn hb := ⟨hI.answer h hn hb.1, hJ.answer h hn hb.2⟩
  opened h hb := ⟨hI.opened h hb.1, hJ.opened h hb.2⟩
  tick h hp hb := ⟨hI.tick h hp hb.1, hJ.tick h hp hb.2⟩
  assign h hq hw hb := ⟨hI.assign h hq hw hb.1, hJ.assign h hq hw hb.2⟩
  rearmed h hw hb := ⟨hI.rearmed h hw hb.1, hJ.rearmed h hw hb.2⟩
  done h hw hb := ⟨hI.done h hw hb.1, hJ.done h hw hb.2⟩
  complete h ha hp hb := ⟨hI.complete h ha hp hb.1, hJ.complete h ha hp hb.2⟩
  terminate h hp hb := ⟨hI.terminate h hp hb.1, hJ.terminate h hp hb.2⟩

theorem provisioning (hI : Kept created I) {n : Nat} (h : Provisioning created b n)
    (hn : n < b.pool.size) (hb : I b []) : b.advance.Holding created I := by
  have hanswer := hI.answer h hn hb
  have hd : Provisioning created (b.answerNext created n) (n + 1) := h.answerNext hn
  have hsize : (b.answerNext created n).pool.size = b.pool.size :=
    (SameSetup.answerNext b created n).size
  rw [h.advance_eq hn]
  by_cases hmore : n + 1 < b.pool.size
  · rw [if_pos hmore]
    exact .running (.provisioning (hsize ▸ hmore) hd) hanswer
  · rw [if_neg hmore]
    by_cases hu : (b.answerNext created n).pool.usable = 0
    · rw [if_pos hu]
      exact .failed _
    · have hlast : n + 1 = (b.answerNext created n).pool.size := by omega
      rw [hlast] at hd
      rw [if_neg hu]
      exact .running (.steady hd.steady) (hI.opened hd hanswer)

theorem cycle (hI : Kept created I) {time : Time} {rest : List (Time × Event)}
    (h : Steady created b log (time, .nextCycle))
    (hp : b.events.pending = (time, .nextCycle) :: rest) (hb : I b log) :
    b.advance.Holding created I := by
  obtain ⟨c, log', hadv, hin, -, hc⟩ := h.tick_induct hp
    (fun c log task rest w hin hc hq hw => hI.assign hin hq hw hc) (hI.tick h hp hb)
  rw [hadv, hin.settled_rearm]
  by_cases hw : c.scheduler.hasWork = false
  · rw [if_pos hw]
    exact .running (.steady (hin.steady_of_done hw)) (hI.done hin hw hc)
  · rw [if_neg hw]
    by_cases hs : c.pool.busy = 0 ∧ c.scheduler.queue = []
    · rw [if_pos hs]
      exact .failed _
    · rw [if_neg hs]
      exact .running (.steady hin.steady_of_rearmed) (hI.rearmed hin (by simpa using hw) hc)

/-- What every change keeps, an event keeps. -/
theorem advance (hI : Kept created I) (hs : Standing created b log) (hb : I b log) :
    b.advance.Holding created I := by
  cases hs with
  | provisioning lt h => exact hI.provisioning h lt hb
  | steady h =>
    obtain ⟨e, rest, hp, rfl | ⟨a, ha, rfl⟩⟩ := h.exists_next
    · obtain ⟨time, event⟩ := e
      rcases h.timer_cases with rfl | ⟨rfl, -⟩
      · exact hI.cycle h hp hb
      · rw [h.advance_of_end hp, settle_terminate]
        exact .finished (hI.terminate h hp hb) rfl
    · rw [h.advance_of_completion ha hp]
      exact .running (.steady (h.complete ha hp)) (hI.complete h ha hp hb)

/-- What every change keeps, a run keeps. -/
theorem progress (hI : Kept created I) (hs : Standing created b log) (hb : I b log) (n : Nat) :
    (b.progress n).Holding created I := by
  induction n generalizing b log with
  | zero => exact .running hs hb
  | succ n ih =>
    have hadv := hI.advance hs hb
    unfold Broker.progress
    generalize b.advance = p at hadv ⊢
    cases hadv with
    | running hs hc => exact ih hs hc
    | failed e => exact .failed e
    | finished hc hr => exact .finished hc hr

end Kept

end Makespan.Broker
