import Makespan.Proofs.Broker.Kept
import Makespan.Proofs.Graph.LongestPaths

/-! How deep a run can have come. What a tick gives out waits for nothing that was given out at the
same tick; so a task at the end of a path is not given out before there was a tick for each task of
the path, and there is one more tick once it has ended. -/

namespace Makespan

namespace Graph

variable {g : Graph} {k : TaskKey} {m n : Nat}

/-- Every path to a task has fewer tasks than that. -/
def DepthLt (g : Graph) (k : TaskKey) (n : Nat) : Prop :=
  ∀ path, g.PathTo k path → path.length < n

theorem DepthLt.mono (h : g.DepthLt k m) (hmn : m ≤ n) : g.DepthLt k n :=
  fun path hpath => (h path hpath).trans_le hmn

theorem DepthLt.succ_of_parents (hn : 0 < n) (h : ∀ p ∈ g.parents k, g.DepthLt p n) :
    g.DepthLt k (n + 1) := by
  intro path hpath
  rcases List.eq_nil_or_concat' path with rfl | ⟨front, j, rfl⟩
  · exact Nat.succ_pos n
  · rw [List.length_append, List.length_singleton, Nat.add_lt_add_iff_right]
    rcases (pathTo_snoc_iff.mp hpath).2 with rfl | ⟨i, hi, hfront⟩
    · exact hn
    · exact h i hi front hfront

/-- A task is not dispatched before there was a tick for each task on any path to it. -/
def Deep (g : Graph) (before : List TraceEntry) : TraceEntry → Prop
  | .dispatch _ id _ => ∀ k < g.size, g.id k = id →
      g.DepthLt k (before.countP (·.isCycle) + 1)
  | _ => True

end Graph

namespace Broker

/-- How many ticks were handled. -/
def ticked (b : Broker) : Nat := b.trace.toList.countP (·.isCycle)

/-- The timer has gone off and is not set again. -/
def Unarmed (b : Broker) : Prop :=
  b.phase = .scheduling ∧ ∀ e ∈ b.events.pending, e.2 ≠ .nextCycle

/-- A broker that has handled as many ticks as the tasks are deep. -/
structure Layered (b : Broker) (log : List Assignment) : Prop where
  law : Along b.scheduler.graph.Deep b.trace.toList
  assigned : ∀ a ∈ log, b.scheduler.graph.DepthLt a.task (b.ticked + 1)
  unarmed : b.Unarmed → 0 < b.ticked ∧
    ∀ k, b.scheduler.isExecuted k = true → b.scheduler.graph.DepthLt k b.ticked
  finished : b.finishTime ≠ none → ∀ k < b.scheduler.graph.size,
    b.scheduler.graph.DepthLt k b.ticked

variable {created : WorkerId → Bool} {b c : Broker} {log log' : List Assignment}

theorem ticked_of_push {e : TraceEntry} (ht : c.trace = b.trace.push e) :
    c.ticked = b.ticked + if e.isCycle then 1 else 0 := by
  rw [ticked, ht, Array.toList_push, List.countP_append, List.countP_singleton]
  rfl

theorem ticked_beginCycle (b : Broker) : b.beginCycle.ticked = b.ticked + 1 :=
  ticked_of_push (b := b) (c := b.beginCycle) rfl

theorem not_unarmed_of_mem {time : Time} (h : (time, .nextCycle) ∈ b.events.pending) :
    ¬ b.Unarmed := fun hu => hu.2 _ h rfl

theorem not_unarmed_of_schedule (b : Broker) (time : Time) :
    ¬ (b.schedule time .nextCycle).Unarmed :=
  not_unarmed_of_mem ((EventQueue.place_perm _ _ _).mem_iff.mpr List.mem_cons_self)

theorem InCycle.unarmed (h : InCycle created b log) : b.Unarmed := ⟨h.flight.phase, h.no_tick⟩

/-- Something can end only while the timer is set. -/
theorem Steady.timer_mem_rest {timer : Time × Event} (h : Steady created b log timer)
    {a : Assignment} (ha : a ∈ b.unfinished log) {rest : List (Time × Event)}
    (hp : b.events.pending = b.notice a :: rest) : timer.2 = .nextCycle ∧ timer ∈ rest := by
  have htick : timer.2 = .nextCycle := by
    refine h.timer_cases.resolve_right fun hdone => ?_
    rw [h.flight.accounted.hasWork ha] at hdone
    cases hdone.2
  have hm : timer ∈ b.events.pending := h.flight.pending.mem_iff.mpr (by simp)
  rw [hp] at hm
  refine ⟨htick, (List.mem_cons.mp hm).resolve_left fun he => ?_⟩
  rw [he] at htick
  cases htick

namespace Layered

theorem of_no_trace (ht : b.trace = #[]) (hp : b.phase = .provisioning)
    (hf : b.finishTime = none) : Layered b [] where
  law := by
    rw [ht]
    exact Along.nil
  assigned a ha := by cases ha
  unarmed h := by
    rw [Unarmed, hp] at h
    cases h.1
  finished h := absurd hf h

/-- An entry that tells of no tick. -/
theorem record (h : Layered b log) {e : TraceEntry}
    (hgraph : c.scheduler.graph = b.scheduler.graph) (ht : c.trace = b.trace.push e)
    (he : e.isCycle = false) (hdeep : b.scheduler.graph.Deep b.trace.toList e)
    (hassigned : ∀ a ∈ log', a ∈ log ∨ b.scheduler.graph.DepthLt a.task (b.ticked + 1))
    (hunarmed : c.Unarmed → 0 < b.ticked ∧
      ∀ k, c.scheduler.isExecuted k = true → b.scheduler.graph.DepthLt k b.ticked)
    (hfinished : c.finishTime ≠ none → ∀ k < b.scheduler.graph.size,
      b.scheduler.graph.DepthLt k b.ticked) : Layered c log' := by
  have hticked : c.ticked = b.ticked := by
    rw [ticked_of_push ht, he]
    rfl
  refine ⟨?_, fun a ha => ?_, ?_, ?_⟩
  · rw [hgraph, ht, Array.toList_push]
    exact along_snoc_iff.mpr ⟨h.law, hdeep⟩
  · rw [hgraph, hticked]
    exact (hassigned a ha).elim (h.assigned a) id
  · rw [hgraph, hticked]
    exact hunarmed
  · rw [hgraph, hticked]
    exact hfinished

/-- Neither the phase nor the events are part of the trace. -/
theorem of_same (h : Layered b log) (hs : c.scheduler = b.scheduler) (ht : c.trace = b.trace)
    (hf : c.finishTime = b.finishTime) (hu : c.Unarmed → b.Unarmed) : Layered c log := by
  have hticked : c.ticked = b.ticked := by rw [ticked, ht, ticked]
  refine ⟨?_, ?_, fun hc => ?_, ?_⟩
  · rw [hs, ht]
    exact h.law
  · rw [hs, hticked]
    exact h.assigned
  · rw [hs, hticked]
    exact h.unarmed (hu hc)
  · rw [hs, hf, hticked]
    exact h.finished

theorem answerNext (h : Layered b []) {n : Nat} (hb : Provisioning created b n) :
    Layered (b.answerNext created n) [] := by
  have hp : (b.answerNext created n).phase = .provisioning := hb.phase
  refine h.record rfl rfl rfl trivial (fun _ => Or.inl) (fun hu => ?_) h.finished
  rw [Unarmed, hp] at hu
  cases hu.1

/-- A tick makes room for one more layer. -/
theorem tick (h : Layered b log) (hb : b.Accounted log) (time : Time) (events : EventQueue Event) :
    Layered { b with clock := time, events }.beginCycle log := by
  have hticked : ({ b with clock := time, events } : Broker).beginCycle.ticked = b.ticked + 1 :=
    ticked_beginCycle _
  refine ⟨?_, fun a ha => ?_, fun _ => ⟨?_, fun k hk => ?_⟩, fun hf k hk => ?_⟩
  · rw [beginCycle, toList_trace_record]
    exact along_snoc_iff.mpr ⟨h.law, trivial⟩
  · rw [hticked]
    exact (h.assigned a ha).mono (Nat.le_succ _)
  · rw [hticked]
    exact Nat.succ_pos _
  · obtain ⟨a, ha, rfl⟩ := hb.executed_logged k hk
    rw [hticked]
    exact h.assigned a ha
  · rw [hticked]
    exact (h.finished hf k hk).mono (Nat.le_succ _)

/-- All parents of a queued task have ended, and so were given out at an earlier tick. -/
theorem assign (h : Layered b log) (hin : InCycle created b log) {task : TaskKey}
    {rest : List TaskKey} (hq : b.scheduler.queue = task :: rest) (w : WorkerId) :
    Layered (b.assign ⟨b.clock, task, w⟩) (log ++ [⟨b.clock, task, w⟩]) := by
  have hacc := hin.flight.accounted
  obtain ⟨hpos, hended⟩ := h.unarmed hin.unarmed
  have hmem : task ∈ log.map (·.task) ++ b.scheduler.queue := by simp [hq]
  have htask : b.scheduler.graph.DepthLt task (b.ticked + 1) := .succ_of_parents hpos
    fun p hp => hended p (hacc.scheduler.parents_executed hmem hp)
  have hlt : task < b.scheduler.graph.size := ((hacc.scheduler.ready_iff task).mp
    ((hacc.scheduler.mem_iff task).mp (List.mem_append_left _ hmem))).1
  refine h.record rfl rfl rfl ?_ (fun a ha => ?_) (fun _ => ⟨hpos, hended⟩) h.finished
  · intro k hk hid
    obtain rfl := hacc.scheduler.graph.id_injective hk hlt hid
    exact htask
  · rcases List.mem_append.mp ha with ha | ha
    · exact Or.inl ha
    · rw [List.mem_singleton.mp ha]
      exact Or.inr htask

theorem complete (h : Layered b log) {timer : Time × Event} (hsteady : Steady created b log timer)
    {a : Assignment} (ha : a ∈ b.unfinished log) {rest : List (Time × Event)}
    (hp : b.events.pending = b.notice a :: rest) :
    Layered ({ b with clock := b.due a, events := ⟨rest⟩ }.complete a) log := by
  obtain ⟨htick, hm⟩ := hsteady.timer_mem_rest ha hp
  exact h.record rfl rfl rfl trivial (fun _ => Or.inl)
    (fun hu => absurd htick (hu.2 timer hm)) h.finished

/-- No timer is set any more when the end comes. -/
theorem terminate (h : Layered b log) {time : Time}
    (hsteady : Steady created b log (time, .endOfSimulation)) (rest : List (Time × Event)) :
    Layered { b with clock := time, events := ⟨rest⟩ }.terminate log := by
  have hdone := hsteady.done_of_end
  have hunarmed : b.Unarmed := by
    refine ⟨hsteady.flight.phase, fun e he => ?_⟩
    have hm := (hsteady.flight.pending_of_no_work hdone).mem_iff.mp he
    rw [List.mem_singleton.mp hm]
    simp
  obtain ⟨hpos, hended⟩ := h.unarmed hunarmed
  refine h.record rfl rfl rfl trivial (fun _ => Or.inl) (fun _ => ⟨hpos, hended⟩) fun _ k hk => ?_
  exact hended k (hsteady.flight.accounted.executed_of_done hdone hk)

theorem kept (created : WorkerId → Bool) : Kept created Layered where
  answer hb _ h := h.answerNext hb
  opened _ h := h.of_same rfl rfl rfl fun hu => absurd hu (not_unarmed_of_schedule _ _)
  tick hsteady _ h := h.tick hsteady.flight.accounted _ _
  assign hin hq _ h := h.assign hin hq _
  rearmed _ _ h := h.of_same rfl rfl rfl fun hu => absurd hu (not_unarmed_of_schedule _ _)
  done hin _ h := h.of_same rfl rfl rfl fun _ => hin.unarmed
  complete hsteady ha hp h := h.complete hsteady ha hp
  terminate hsteady _ h := h.terminate hsteady _

end Layered

/-- In a report no task is dispatched before its layer, and there are more ticks than tasks on any
path. -/
theorem Standing.report_layered {b₀ : Broker} (hs : Standing created b [])
    (hsetup : SameSetup b₀ b) (h : Layered b []) {n : Nat} {r : Report}
    (hn : b.progress n = .ended (.ok r)) :
    Along b₀.scheduler.graph.Deep r.trace.toList ∧
      ∀ k < b₀.scheduler.graph.size, b₀.scheduler.graph.DepthLt k r.cycles := by
  have hheld := ((Layered.kept created).and (.sameSetup created b₀)).progress hs ⟨h, hsetup⟩ n
  rw [hn] at hheld
  cases hheld with
  | @finished c log _ hc hreport =>
    obtain ⟨hfinish, htrace⟩ := report_eq_ok hreport
    obtain ⟨hlayered, hsame⟩ := hc
    have hcycles : r.cycles = c.ticked := by rw [Report.cycles, htrace, ticked, Array.countP_toList]
    rw [← hsame.graph, htrace, hcycles]
    exact ⟨hlayered.law, hlayered.finished (by rw [hfinish]; simp)⟩

end Broker

end Makespan
