import Makespan.Proofs.Broker.Opening
import Makespan.Proofs.Pool.Ranking

/-! The trace as a timetable. After the answers to the creation requests a run goes on in rounds. A
round begins at the tick of its number with work left; first it gives tasks out, then it tells the
tasks that end before the next tick. The first tick that finds no work left is the last one, and the
run is over by then. -/

namespace Makespan

/-- When a tick comes: the first one at once, each other one a delay after the one before. -/
def tickTime (delay : Time) : Nat → Time
  | 0 => .zero
  | k + 1 => tickTime delay k + delay

/-- What is told of the end of a task. -/
structure Ending where
  task : String
  worker : WorkerId
  started : Time
  finished : Time
  number : Nat

def Ending.entry (e : Ending) : TraceEntry :=
  .completion e.finished e.task e.worker e.started e.finished e.number

/-- What is told from one tick to the next. -/
structure Round where
  time : Time
  ready : List String
  idle : List WorkerId
  /-- The tasks that are given out, each with its worker. -/
  given : List (String × WorkerId)
  ended : List Ending

namespace Round

def entries (r : Round) : List TraceEntry :=
  .cycle r.time r.ready r.idle ::
    (r.given.map (fun x => .dispatch r.time x.1 x.2) ++ r.ended.map (·.entry))

/-- The tasks that ended in some rounds. -/
def finished (rounds : List Round) : List String :=
  rounds.flatMap fun r => r.ended.map (·.task)

/-- A round comes at the tick of its number, and not after all jobs have ended. -/
def Follows (delay : Time) (jobs : List String) (earlier : List Round) (r : Round) : Prop :=
  r.time = tickTime delay earlier.length ∧ ∃ id ∈ jobs, id ∉ finished earlier

/-- What a round tells after its tick does not matter to the order of the rounds. -/
theorem follow_of_time {delay : Time} {jobs : List String} {earlier : List Round} {r r' : Round}
    (h : Along (Follows delay jobs) (earlier ++ [r])) (ht : r'.time = r.time) :
    Along (Follows delay jobs) (earlier ++ [r']) := by
  obtain ⟨hearlier, htime, hleft⟩ := along_snoc_iff.mp h
  exact along_snoc_iff.mpr ⟨hearlier, ht.trans htime, hleft⟩

theorem completed_entries (rounds : List Round) :
    (rounds.flatMap entries).filterMap (·.completed?) = finished rounds := by
  have hround : ∀ r : Round, r.entries.filterMap (·.completed?) = r.ended.map (·.task) := by
    intro r
    have hgiven : (r.given.map fun x => TraceEntry.dispatch r.time x.1 x.2).filterMap
        (·.completed?) = [] := by
      rw [List.filterMap_map, List.filterMap_eq_nil_iff]
      exact fun _ _ => rfl
    have hended : (r.ended.map (·.entry)).filterMap (·.completed?) = r.ended.map (·.task) := by
      rw [List.filterMap_map]
      exact congrFun List.filterMap_eq_map _
    rw [entries, List.filterMap_cons_none rfl, List.filterMap_append, hgiven, hended, List.nil_append]
  rw [List.filterMap_flatMap]
  exact List.flatMap_congr fun r _ => hround r

end Round

/-- A report as a timetable: the answers, the rounds one after the other, one more tick that finds
nothing ready, and the end at that tick. All jobs ended in the rounds, some of them in the last one. -/
structure Report.Timetable (r : Report) (answers : List TraceEntry) (delay : Time)
    (jobs : List String) (rounds : List Round) : Prop where
  trace : ∃ idle, r.trace.toList = answers ++ rounds.flatMap (·.entries) ++
    [.cycle r.makespan [] idle, .finished r.makespan r.executed]
  makespan : r.makespan = tickTime delay rounds.length
  follow : Along (Round.Follows delay jobs) rounds
  all_ended : (Round.finished rounds).Perm jobs
  last : ∃ earlier round e, rounds = earlier ++ [round] ∧ round.ended.getLast? = some e ∧
    r.lastCompletion = e.finished

namespace Broker

variable {created : WorkerId → Bool} {b c : Broker} {log : List Assignment} {rounds : List Round}

def jobs (b : Broker) : List String :=
  (List.range b.scheduler.graph.size).map b.scheduler.graph.id

/-- What is told of the answer to a creation request. -/
def answerEntry (b : Broker) (created : WorkerId → Bool) (w : WorkerId) : TraceEntry :=
  .acknowledged .zero w (b.pool.speed w) (created w)

def answers (b : Broker) (created : WorkerId → Bool) : List TraceEntry :=
  (List.range b.pool.size).map (b.answerEntry created)

theorem SameSetup.jobs (h : SameSetup b c) : c.jobs = b.jobs := by
  rw [Broker.jobs, Broker.jobs, h.graph]

theorem SameSetup.answerEntry (h : SameSetup b c) (created : WorkerId → Bool) :
    c.answerEntry created = b.answerEntry created := by
  funext w
  rw [Broker.answerEntry, Broker.answerEntry, Pool.speed, Pool.speed, h.speed]

theorem SameSetup.answers (h : SameSetup b c) (created : WorkerId → Bool) :
    c.answers created = b.answers created := by
  rw [Broker.answers, Broker.answers, h.answerEntry, h.size]

/-- A broker that stands at the end of some rounds, or in the course of the last one. -/
structure Told (created : WorkerId → Bool) (b : Broker) (rounds : List Round) : Prop where
  trace : b.trace.toList = b.answers created ++ rounds.flatMap (·.entries)
  follow : Along (Round.Follows b.cycleDelay b.jobs) rounds
  last : b.scheduler.hasWork = true ∨ ∃ earlier round e, rounds = earlier ++ [round] ∧
    round.ended.getLast? = some e ∧ b.lastCompletion = e.finished

namespace Told

theorem completed_eq (h : Told created b rounds) :
    b.trace.toList.filterMap (·.completed?) = Round.finished rounds := by
  have hnone : (b.answers created).filterMap (·.completed?) = [] := by
    rw [answers, List.filterMap_map, List.filterMap_eq_nil_iff]
    exact fun _ _ => rfl
  rw [h.trace, List.filterMap_append, hnone, Round.completed_entries, List.nil_append]

/-- Nothing is assigned before the first round. -/
theorem exists_last (h : Told created b rounds) (hacc : b.Accounted log) {a : Assignment}
    (ha : a ∈ log) : ∃ earlier round, rounds = earlier ++ [round] := by
  rcases List.eq_nil_or_concat rounds with rfl | ⟨earlier, round, hr⟩
  · have hm := hacc.dispatch_mem_iff.mpr ⟨a, ha, rfl, rfl, rfl⟩
    rw [h.trace, List.flatMap_nil, List.append_nil, answers, List.mem_map] at hm
    obtain ⟨w, -, hw⟩ := hm
    cases hw
  · exact ⟨earlier, round, by rw [hr, List.concat_eq_append]⟩

/-! ## What each change keeps -/

theorem at_event (h : Told created b rounds) (clock : Time) (events : EventQueue Event) :
    Told created { b with clock, events } rounds := { h with }

theorem schedule (h : Told created b rounds) (time : Time) (event : Event) :
    Told created (b.schedule time event) rounds := { h with }

/-- A tick with work left begins a round. -/
theorem beginCycle (h : Told created b rounds) (hacc : b.Accounted log)
    (hclock : b.clock = tickTime b.cycleDelay rounds.length) (hw : b.scheduler.hasWork = true) :
    Told created b.beginCycle (rounds ++ [⟨b.clock,
      b.scheduler.cycle.queue.map b.scheduler.graph.id, b.pool.idle, [], []⟩]) where
  trace := by
    rw [(SameSetup.beginCycle b).answers, Broker.beginCycle, toList_trace_record, h.trace,
      List.flatMap_append, List.append_assoc]
    rfl
  follow := by
    refine along_snoc_iff.mpr ⟨h.follow, hclock, ?_⟩
    obtain ⟨k, hk, hx⟩ := hacc.scheduler.hasWork_iff.mp hw
    refine ⟨b.scheduler.graph.id k, List.mem_map_of_mem (List.mem_range.mpr hk), fun hm => ?_⟩
    rw [← h.completed_eq] at hm
    obtain ⟨j, hj, hid⟩ := (hacc.trace.completions _).mp hm
    rw [hacc.scheduler.graph.id_injective (hacc.executed_lt hj) hk hid, hx] at hj
    cases hj
  last := Or.inl hw

theorem assign {earlier : List Round} {ready : List String} {idle : List WorkerId}
    {given : List (String × WorkerId)}
    (h : Told created b (earlier ++ [⟨b.clock, ready, idle, given, []⟩]))
    (hw : b.scheduler.hasWork = true) (task : TaskKey) (w : WorkerId) :
    Told created (b.assign ⟨b.clock, task, w⟩) (earlier ++
      [⟨b.clock, ready, idle, given ++ [(b.scheduler.graph.id task, w)], []⟩]) where
  trace := by
    have ht : (b.assign ⟨b.clock, task, w⟩).trace.toList =
        b.trace.toList ++ [.dispatch b.clock (b.scheduler.graph.id task) w] := Array.toList_push
    rw [ht, (SameSetup.assign b _).answers, h.trace]
    simp [Round.entries]
  follow := by
    rw [(SameSetup.assign b _).delay, (SameSetup.assign b _).jobs]
    exact Round.follow_of_time h.follow rfl
  last := Or.inl hw

/-- A completion belongs to the round that is under way. -/
theorem complete {earlier : List Round} {r : Round} (h : Told created b (earlier ++ [r]))
    (a : Assignment) : ∃ ended, Told created (b.complete a) (earlier ++ [{ r with ended }]) := by
  let e : Ending := ⟨b.scheduler.graph.id a.task, a.worker, a.started, b.clock, b.executed + 1⟩
  refine ⟨r.ended ++ [e], ?_, ?_, Or.inr ⟨earlier, _, e, rfl, by simp, rfl⟩⟩
  · have ht : (b.complete a).trace.toList = b.trace.toList ++ [e.entry] := Array.toList_push
    rw [ht, (SameSetup.complete b a).answers, h.trace]
    simp [Round.entries]
  · rw [(SameSetup.complete b a).delay, (SameSetup.complete b a).jobs]
    exact Round.follow_of_time h.follow rfl

/-! ## From event to event -/

/-- A tick with work left fails, or leads to the next tick by way of a new round. -/
theorem tick {time : Time} {rest : List (Time × Event)} (h : Told created b rounds)
    (hs : Steady created b log (time, .nextCycle))
    (hp : b.events.pending = (time, .nextCycle) :: rest)
    (ht : time = tickTime b.cycleDelay rounds.length) (hw : b.scheduler.hasWork = true) :
    (∃ e, b.advance = .ended (.error e)) ∨ ∃ c log' rounds', b.advance = .running c ∧
      SameSetup b c ∧ Told created c rounds' ∧
      Steady created c log' (tickTime c.cycleDelay rounds'.length, .nextCycle) := by
  have hacc := hs.flight.accounted.at_event time ⟨rest⟩
  obtain ⟨c, log', hadv, hin, hsetup, ⟨given, hc⟩, hclock, hwc⟩ := hs.tick_induct hp
    (I := fun c _ => (∃ given, Told created c (rounds ++ [⟨c.clock,
      b.scheduler.cycle.queue.map b.scheduler.graph.id, b.pool.idle, given, []⟩])) ∧
        c.clock = time ∧ c.scheduler.hasWork = true)
    (fun c _ task _ w _ ⟨⟨_, hc⟩, hclock, hwc⟩ _ _ => ⟨⟨_, hc.assign hwc task w⟩, hclock, hwc⟩)
    ⟨⟨[], (h.at_event time ⟨rest⟩).beginCycle hacc ht hw⟩, rfl, hw⟩
  rw [hadv, hin.settled_rearm, if_neg (by rw [hwc]; simp)]
  by_cases hstuck : c.pool.busy = 0 ∧ c.scheduler.queue = []
  · rw [if_pos hstuck]
    exact Or.inl ⟨_, rfl⟩
  · rw [if_neg hstuck]
    refine Or.inr ⟨_, log', _, rfl, hsetup.trans (.schedule c _ _), hc.schedule _ _, ?_⟩
    have hnext : c.clock + c.cycleDelay = tickTime c.cycleDelay (rounds.length + 1) := by
      rw [tickTime, hclock, ht, hsetup.delay]
    have hsteady := hin.steady_of_rearmed
    rw [List.length_append, List.length_singleton]
    rwa [hnext] at hsteady ⊢

/-- A completion leads to another event of the same round. -/
theorem completion {timer : Time × Event} {rest : List (Time × Event)} {a : Assignment}
    (h : Told created b rounds) (hs : Steady created b log timer) (ha : a ∈ b.unfinished log)
    (hp : b.events.pending = b.notice a :: rest) :
    ∃ c rounds', b.advance = .running c ∧ SameSetup b c ∧ Told created c rounds' ∧
      rounds'.length = rounds.length ∧ Steady created c log timer := by
  obtain ⟨earlier, r, rfl⟩ := h.exists_last hs.flight.accounted (mem_unfinished.mp ha).1
  obtain ⟨ended, hc⟩ := (h.at_event (b.due a) ⟨rest⟩).complete a
  refine ⟨_, _, hs.advance_of_completion ha hp,
    (SameSetup.at_event b _ _).trans (.complete _ a), hc, ?_, hs.complete ha hp⟩
  rw [List.length_append, List.length_append, List.length_singleton, List.length_singleton]

/-- The tick that finds no work left is the last. -/
theorem close {time : Time} {rest : List (Time × Event)} (h : Told created b rounds)
    (hs : Steady created b log (time, .nextCycle))
    (hp : b.events.pending = (time, .nextCycle) :: rest)
    (ht : time = tickTime b.cycleDelay rounds.length) (hw : b.scheduler.hasWork = false) :
    ∃ c r, b.advance = .running c ∧ c.advance = .ended (.ok r) ∧
      r.Timetable (b.answers created) b.cycleDelay b.jobs rounds := by
  obtain ⟨c, r, hadv, hend, hmakespan, hexecuted, hlast, htrace⟩ := hs.advance_of_done hp hw
  refine ⟨c, r, hadv, hend, ⟨b.pool.idle, ?_⟩, hmakespan.trans ht, h.follow, ?_, ?_⟩
  · rw [htrace, h.trace, hmakespan, hexecuted]
  · rw [← h.completed_eq]
    exact hs.flight.accounted.completed_perm hw
  · rw [hlast]
    exact h.last.resolve_left (by rw [hw]; simp)

/-- A run that ends with a report has gone on in rounds. -/
theorem run {n : Nat} {r : Report} (h : Told created b rounds)
    (hs : Steady created b log (tickTime b.cycleDelay rounds.length, .nextCycle))
    (hn : b.progress n = .ended (.ok r)) :
    ∃ rounds', r.Timetable (b.answers created) b.cycleDelay b.jobs rounds' := by
  induction n generalizing b log rounds with
  | zero => cases hn
  | succ n ih =>
    have hgo : ∀ {c log' rounds'}, b.advance = .running c → SameSetup b c →
        Told created c rounds' →
        Steady created c log' (tickTime c.cycleDelay rounds'.length, .nextCycle) →
        ∃ rounds', r.Timetable (b.answers created) b.cycleDelay b.jobs rounds' := by
      intro c log' rounds' hadv hsetup hc hsc
      rw [progress_of_running hadv] at hn
      rw [← hsetup.answers, ← hsetup.delay, ← hsetup.jobs]
      exact ih hc hsc hn
    obtain ⟨e, rest, hp, rfl | ⟨a, ha, rfl⟩⟩ := hs.exists_next
    · cases hw : b.scheduler.hasWork with
      | true =>
        rcases h.tick hs hp rfl hw with ⟨e, he⟩ | ⟨c, log', rounds', hadv, hsetup, hc, hsc⟩
        · rw [progress_of_ended he] at hn
          cases hn
        · exact hgo hadv hsetup hc hsc
      | false =>
        obtain ⟨c, r', hadv, hend, htable⟩ := h.close hs hp rfl hw
        rw [progress_of_running hadv] at hn
        cases n with
        | zero => cases hn
        | succ n =>
          rw [progress_of_ended hend] at hn
          obtain rfl := Except.ok.inj (Progress.ended.inj hn)
          exact ⟨rounds, htable⟩
    · obtain ⟨c, rounds', hadv, hsetup, hc, hlength, hsc⟩ := h.completion hs ha hp
      rw [← hlength, ← hsetup.delay] at hsc
      exact hgo hadv hsetup hc hsc

end Told

/-! ## The answers -/

theorem trace_answerNext (hb : SameSetup b c) {n : Nat}
    (ht : c.trace.toList = (List.range n).map (b.answerEntry created)) :
    (c.answerNext created n).trace.toList = (List.range (n + 1)).map (b.answerEntry created) := by
  have hspeed : (c.pool.worker? n).elim 0 (·.speed) = c.pool.speed n := by
    rw [Pool.speed, Pool.speed?]
    cases c.pool.worker? n <;> rfl
  have hpush : (c.answerNext created n).trace.toList = c.trace.toList ++
      [.acknowledged .zero n ((c.pool.worker? n).elim 0 (·.speed)) (created n)] := Array.toList_push
  rw [hpush, hspeed, ht, List.range_succ, List.map_append, ← hb.answerEntry]
  rfl

/-- Once the last answer is there, the trace holds the answers and nothing else. -/
theorem Provisioning.told (h : Provisioning created b 0) (ht : b.trace = #[])
    (hpos : 0 < b.scheduler.graph.size) (hc : ∃ w < b.pool.size, created w = true) :
    ∃ d, b.progress b.pool.size = .running d ∧ SameSetup b d ∧ Told created d [] ∧
      Steady created d [] (.zero, .nextCycle) := by
  have hworkers : 0 < b.pool.size := by
    obtain ⟨w, hlt, -⟩ := hc
    exact Nat.zero_lt_of_lt hlt
  obtain ⟨d, hprogress, hd, hsetup, htrace⟩ := h.open_induct
    (I := fun c n => SameSetup b c ∧ c.trace.toList = (List.range n).map (b.answerEntry created))
    (fun c n _ _ ⟨hsetup, htrace⟩ =>
      ⟨hsetup.trans (.answerNext c created n), trace_answerNext hsetup htrace⟩)
    hworkers ⟨.refl b, by rw [ht]; rfl⟩ hc
  have hall : SameSetup b d.beginScheduling := hsetup.trans (.beginScheduling d)
  refine ⟨_, hprogress, hall, ⟨?_, Along.nil, Or.inl ?_⟩, hd.steady⟩
  · rw [hall.answers, List.flatMap_nil, List.append_nil, answers, ← hsetup.size]
    exact htrace
  · refine hd.accounted.scheduler.hasWork_iff.mpr ⟨0, hsetup.graph ▸ hpos, ?_⟩
    by_contra hx
    obtain ⟨a, ha, -⟩ := hd.accounted.executed_logged 0 (by simpa using hx)
    cases ha

/-- A run on course that has just been started and ends with a report. -/
theorem Course.timetable {b₀ : Broker} {n : Nat} {r : Report}
    (h : Course created b₀ (.running b)) (hp : b.phase = .provisioning) (ha : b.acknowledged = 0)
    (ht : b.trace = #[]) (hpos : 0 < b₀.scheduler.graph.size)
    (hn : b.progress n = .ended (.ok r)) :
    ∃ rounds, r.Timetable (b₀.answers created) b₀.cycleDelay b₀.jobs rounds := by
  have hc : ∃ w < b₀.pool.size, created w = true := by
    have hend := hn ▸ h.progress n
    cases hend with
    | finished setup some_created h done ticks executed trace => exact some_created
  cases h with
  | @provisioning _ k setup lt h =>
    obtain rfl : k = 0 := h.acknowledged.symm.trans ha
    rw [← setup.graph] at hpos
    obtain ⟨d, hprogress, hsetup, htold, hsteady⟩ := h.told ht hpos (setup.size ▸ hc)
    have hall := setup.trans hsetup
    rw [← hall.answers, ← hall.delay, ← hall.jobs]
    exact htold.run hsteady (progress_rest hprogress hn)
  | steady setup some_created h =>
    rw [h.flight.phase] at hp
    cases hp

end Broker

end Makespan
