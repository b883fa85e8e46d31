import Makespan.Proofs.Broker.Dependencies
import Makespan.Proofs.Broker.Run
import Makespan.Proofs.Scheduler.StandIn

/-! A broker on another graph. Every event has the same outcome on it, the graph and the names of
tasks apart, as long as the scheduler cannot tell the two graphs from each other; so do whole
runs. -/

namespace Makespan

/-- An entry with other names for the tasks. -/
def TraceEntry.renameTasks (f : String → String) : TraceEntry → TraceEntry
  | acknowledged time worker speed created => acknowledged time worker speed created
  | cycle time ready idle => cycle time (ready.map f) idle
  | dispatch time task worker => dispatch time (f task) worker
  | completion time task worker start finish executed =>
    completion time (f task) worker start finish executed
  | finished time executed => finished time executed

theorem TraceEntry.renameTasks_sameName (e : TraceEntry) : e.renameTasks sameName = e := by
  cases e with
  | cycle time ready idle => exact congrArg (cycle time · idle) (List.map_id'' (fun _ => rfl) ready)
  | _ => rfl

def Report.rename (f : String → String) (r : Report) : Report :=
  { r with trace := r.trace.map (·.renameTasks f) }

/-- What a run comes to, with other names for the tasks. -/
def renameResult (f : String → String) : Except Error Report → Except Error Report
  | .ok r => .ok (r.rename f)
  | .error e => .error (e.rename f)

/-- The same broker on another graph, and with other names for the tasks in its trace. -/
def Broker.under (f : String → String) (b : Broker) (g : Graph) : Broker :=
  { b with scheduler := b.scheduler.on g, trace := b.trace.map (·.renameTasks f) }

/-- The same broker on another graph. -/
def Broker.on (b : Broker) (g : Graph) : Broker := { b with scheduler := b.scheduler.on g }

def Outcome.under (f : String → String) (o : Outcome) (g : Graph) : Outcome :=
  ⟨o.broker.under f g, o.error?.map (·.rename f)⟩

def Outcome.on (o : Outcome) (g : Graph) : Outcome := ⟨o.broker.on g, o.error?⟩

@[simp] theorem Outcome.under_mk (f : String → String) (b : Broker) (error? : Option Error)
    (g : Graph) : Outcome.under f ⟨b, error?⟩ g = ⟨b.under f g, error?.map (·.rename f)⟩ := rfl

namespace Broker

def Progress.under (f : String → String) (g : Graph) : Progress → Progress
  | running b => running (b.under f g)
  | ended result => ended (renameResult f result)

def Progress.on (g : Graph) : Progress → Progress
  | running b => running (b.on g)
  | ended result => ended result

variable {f : String → String} {b : Broker} {g : Graph}

/-! ## Keeping the names -/

theorem under_sameName (b : Broker) (g : Graph) : b.under sameName g = b.on g := by
  have htrace : b.trace.map (·.renameTasks sameName) = b.trace := by
    rw [funext TraceEntry.renameTasks_sameName, Array.map_id']
  rw [under, htrace]
  rfl

theorem outcome_under_sameName (o : Outcome) (g : Graph) : o.under sameName g = o.on g := by
  obtain ⟨b, error?⟩ := o
  have herror : error?.map (·.rename sameName) = error? := by
    rw [funext Error.rename_sameName, Option.map_id']
  rw [Outcome.under_mk, under_sameName, herror]
  rfl

theorem renameResult_sameName (result : Except Error Report) :
    renameResult sameName result = result := by
  cases result with
  | error e => exact congrArg Except.error e.rename_sameName
  | ok r =>
    have htrace : r.trace.map (·.renameTasks sameName) = r.trace := by
      rw [funext TraceEntry.renameTasks_sameName, Array.map_id']
    rw [renameResult, Report.rename, htrace]

theorem progress_under_sameName (x : Progress) (g : Graph) : x.under sameName g = x.on g := by
  cases x with
  | running b => exact congrArg Progress.running (b.under_sameName g)
  | ended result => exact congrArg Progress.ended (renameResult_sameName result)

/-! ## What neither the graph nor the names have a part in -/

@[simp] theorem phase_under (b : Broker) (g : Graph) : (b.under f g).phase = b.phase := rfl

@[simp] theorem clock_under (b : Broker) (g : Graph) : (b.under f g).clock = b.clock := rfl

@[simp] theorem events_under (b : Broker) (g : Graph) : (b.under f g).events = b.events := rfl

@[simp] theorem pool_under (b : Broker) (g : Graph) : (b.under f g).pool = b.pool := rfl

@[simp] theorem delay_under (b : Broker) (g : Graph) :
    (b.under f g).cycleDelay = b.cycleDelay := rfl

@[simp] theorem queue_under (b : Broker) (g : Graph) :
    (b.under f g).scheduler.queue = b.scheduler.queue := rfl

@[simp] theorem schedule_under (b : Broker) (g : Graph) (time : Time) (event : Event) :
    (b.under f g).schedule time event = (b.schedule time event).under f g := rfl

@[simp] theorem at_event_under (b : Broker) (g : Graph) (clock : Time)
    (events : EventQueue Event) :
    { b.under f g with clock, events } = { b with clock, events }.under f g := rfl

@[simp] theorem graph_under (b : Broker) (g : Graph) :
    (b.under f g).scheduler.graph = g := rfl

theorem under_new (label : String) (s : Scheduler) (tiers : List Tier) (delay : Time) (g : Graph) :
    (Broker.new label s tiers delay).under f g = .new label (s.on g) tiers delay := by
  rw [under, new, Array.map_empty]
  rfl

theorem record_under (b : Broker) (g : Graph) {entry entry' : TraceEntry}
    (h : entry' = entry.renameTasks f) :
    (b.under f g).record entry' = (b.record entry).under f g := by
  simp [record, under, h]

theorem report_under (b : Broker) (g : Graph) :
    (b.under f g).report = renameResult f b.report := by
  have hfinish : (b.under f g).finishTime = b.finishTime := rfl
  unfold report
  rw [hfinish]
  cases b.finishTime <;> rfl

theorem report_on (b : Broker) (g : Graph) : (b.on g).report = b.report := rfl

theorem hasWork_under (h : g.size = b.scheduler.graph.size) :
    (b.under f g).scheduler.hasWork = b.scheduler.hasWork := by
  unfold Scheduler.hasWork
  rw [← h]
  rfl

theorem remaining_under (h : g.size = b.scheduler.graph.size) :
    (b.under f g).scheduler.remaining = b.scheduler.remaining := by
  unfold Scheduler.remaining
  rw [← h]
  rfl

/-! ## What no event changes -/

theorem scheduler_handleCreated (b : Broker) (w : WorkerId) (created : Bool) :
    (b.handleCreated w created).broker.scheduler = b.scheduler := by
  unfold handleCreated
  split
  · rfl
  · simp only
    split
    · rfl
    · split <;> rfl

theorem scheduler_dispatch (b : Broker) (task : TaskKey) (w : WorkerId) :
    (b.dispatch task w).broker.scheduler = b.scheduler := by
  unfold dispatch
  split <;> rfl

theorem basis_dispatchAll (b : Broker) (ws : List WorkerId) :
    b.scheduler.SameBasis (b.dispatchAll ws).broker.scheduler := by
  induction ws generalizing b with
  | nil => exact .refl _
  | cons w ws ih =>
    unfold dispatchAll
    cases ht : b.scheduler.take? with
    | none => exact .refl _
    | some taken =>
      obtain ⟨task, s⟩ := taken
      have hs : b.scheduler.SameBasis s := .of_take? ht
      have hd := scheduler_dispatch { b with scheduler := s } task w
      cases ho : ({ b with scheduler := s } : Broker).dispatch task w with
      | mk c error? =>
        rw [ho] at hd
        have hc : b.scheduler.SameBasis c.scheduler := by
          rw [show c.scheduler = s from hd]
          exact hs
        cases error? with
        | none => simpa only [ho] using hc.trans (ih c)
        | some e => simpa only [ho] using hc

theorem scheduler_rearm (b : Broker) : b.rearm.broker.scheduler = b.scheduler := by
  rw [rearm_eq]
  split
  · rfl
  · split <;> rfl

theorem basis_handleCycle (b : Broker) :
    b.scheduler.SameBasis b.handleCycle.broker.scheduler := by
  have hall := basis_dispatchAll b.beginCycle b.pool.idle
  have hbegin : b.scheduler.SameBasis b.beginCycle.scheduler := ⟨rfl, rfl⟩
  cases ho : b.beginCycle.dispatchAll b.pool.idle with
  | mk c error? =>
    rw [ho] at hall
    cases error? with
    | none =>
      rw [handleCycle_of_dispatchAll ho, scheduler_rearm]
      exact hbegin.trans hall
    | some e =>
      rw [handleCycle_of_failure ho]
      exact hbegin.trans hall

theorem basis_handleFinished (b : Broker) (w : WorkerId) (task : TaskKey) (started : Time) :
    b.scheduler.SameBasis (b.handleFinished w task started).broker.scheduler := by
  unfold handleFinished
  split
  · exact .refl _
  · simp only
    split
    · exact .refl _
    · have h := Scheduler.SameBasis.notify b.scheduler task
      split <;> rename_i hn <;> rw [hn] at h <;> exact h

/-- No event changes what a broker works on. -/
theorem basis_step (b : Broker) (event : Event) :
    b.scheduler.SameBasis (b.step event).broker.scheduler := by
  cases hp : b.phase <;> cases event <;> simp only [step, hp]
  case provisioning.workerCreated w created =>
    rw [scheduler_handleCreated]
    exact .refl _
  case scheduling.nextCycle => exact basis_handleCycle b
  case scheduling.taskFinished w task started => exact basis_handleFinished b w task started
  case scheduling.endOfSimulation =>
    rw [handleEnd_eq]
    split
    · exact .refl _
    · exact ⟨rfl, rfl⟩
  all_goals exact .refl _

theorem basis_start {c : Broker} {p : Provisioner} (h : b.start p = .ok c) :
    b.scheduler.SameBasis c.scheduler := by
  unfold start at h
  split at h
  · cases h
  · split at h
    · cases h
    · have hsetup := SameSetup.requestAll b fun w => p w = .created
      obtain rfl := Except.ok.inj h
      exact ⟨hsetup.graph, hsetup.policy⟩

theorem basis_advance {c : Broker} (h : b.advance = .running c) :
    b.scheduler.SameBasis c.scheduler := by
  obtain ⟨time, event, rest, d, hd, hc⟩ := exists_step_of_advance h
  have hstep := basis_step { b with clock := time, events := ⟨rest⟩ } event
  rw [hd] at hstep
  rcases hc with rfl | rfl
  · exact hstep
  · exact hstep

/-! ## What each event does on the other graph -/

theorem handleCreated_under (b : Broker) (g : Graph) (w : WorkerId) (created : Bool) :
    (b.under f g).handleCreated w created = (b.handleCreated w created).under f g := by
  unfold handleCreated
  rw [pool_under]
  by_cases hw : w < b.pool.size
  · rw [Pool.acknowledge_of_lt hw]
    let pool := b.pool.setStatus w (if created then .available else .failed)
    let c : Broker := { b with pool, acknowledged := b.acknowledged + 1 }
    let answer := TraceEntry.acknowledged b.clock w ((pool.worker? w).elim 0 (·.speed)) created
    have hrecord : (c.under f g).record answer = (c.record answer).under f g :=
      record_under c g rfl
    simp only [apply_ite (Outcome.under f · g), Outcome.under_mk]
    exact congrArg (fun d : Broker => if d.acknowledged < pool.size then (⟨d, none⟩ : Outcome)
      else if pool.usable = 0 then ⟨d, some .noUsableWorkers⟩
      else ⟨{ d with phase := .scheduling }.schedule d.clock .nextCycle, none⟩) hrecord
  · rw [Pool.acknowledge_of_not_lt hw]
    rfl

theorem rename_of_claim {p : Pool} {w : WorkerId} {task : TaskKey} {e : Error}
    (h : p.claim w task = .error e) : e.rename f = e := by
  unfold Pool.claim Pool.worker at h
  cases hw : p.worker? w with
  | none =>
    rw [hw] at h
    cases h
    rfl
  | some x =>
    simp only [hw] at h
    rcases bind_eq_error_iff.mp h with h | ⟨_, -, h⟩
    · cases h
    · split at h
      · cases h
      · cases h
        rfl

theorem dispatch_under {policy : Policy} (h : b.scheduler.graph.StandIn policy f g) {task : TaskKey}
    (hname : g.id task = f (b.scheduler.graph.id task)) (w : WorkerId) :
    (b.under f g).dispatch task w = (b.dispatch task w).under f g := by
  have hlength : (g.nodes[task]?).elim 0 (·.task.length) =
      (b.scheduler.graph.nodes[task]?).elim 0 (·.task.length) := h.length task
  unfold dispatch
  rw [pool_under]
  cases hc : b.pool.claim w task with
  | error e =>
    rw [Outcome.under_mk, Option.map_some, rename_of_claim hc]
  | ok pool =>
    let c : Broker := { b with pool }
    let duration := (pool.worker? w).elim 0
      (·.executionTime ((b.scheduler.graph.nodes[task]?).elim 0 (·.task.length)))
    have hrecord : (c.under f g).record (.dispatch b.clock (g.id task) w) =
        (c.record (.dispatch b.clock (b.scheduler.graph.id task) w)).under f g :=
      record_under c g (congrArg (TraceEntry.dispatch b.clock · w) hname)
    simp only [graph_under, hlength]
    exact congrArg (fun d : Broker =>
      (⟨d.schedule (b.clock + duration) (.taskFinished w task b.clock), none⟩ : Outcome)) hrecord

theorem dispatchAll_under (h : b.scheduler.graph.StandIn b.scheduler.policy f g)
    (hname : ∀ k ∈ b.scheduler.queue, g.id k = f (b.scheduler.graph.id k)) (ws : List WorkerId) :
    (b.under f g).dispatchAll ws = (b.dispatchAll ws).under f g := by
  induction ws generalizing b with
  | nil => rfl
  | cons w ws ih =>
    have htake : (b.under f g).scheduler.take? =
        b.scheduler.take?.map fun taken => (taken.1, taken.2.on g) := b.scheduler.take?_on g
    unfold dispatchAll
    rw [htake]
    cases ht : b.scheduler.take? with
    | none => rfl
    | some taken =>
      obtain ⟨task, s⟩ := taken
      have hq : b.scheduler.queue = task :: s.queue := Scheduler.queue_of_take? ht
      have hbasis : b.scheduler.SameBasis s := .of_take? ht
      rw [hq, List.forall_mem_cons, ← hbasis.graph] at hname
      have hd := scheduler_dispatch { b with scheduler := s } task w
      have hunder : ({ b.under f g with scheduler := s.on g } : Broker).dispatch task w =
          (({ b with scheduler := s } : Broker).dispatch task w).under f g :=
        dispatch_under (b := { b with scheduler := s }) (hbasis.standIn h) hname.1 w
      simp only [Option.map_some, hunder]
      cases ho : ({ b with scheduler := s } : Broker).dispatch task w with
      | mk c error? =>
        rw [ho] at hd
        have hc : c.scheduler = s := hd
        cases error? with
        | none => exact ih (by rw [hc]; exact hbasis.standIn h) (by rw [hc]; exact hname.2)
        | some e => rfl

theorem rearm_under (h : g.size = b.scheduler.graph.size) :
    (b.under f g).rearm = b.rearm.under f g := by
  rw [rearm_eq, rearm_eq]
  simp only [hasWork_under h, remaining_under h, pool_under, queue_under, clock_under, delay_under,
    schedule_under, apply_ite (Outcome.under f · g), Outcome.under_mk]
  rfl

theorem handleCycle_under (h : b.scheduler.graph.StandIn b.scheduler.policy f g)
    (hname : ∀ k ∈ b.scheduler.queue ++ b.scheduler.arrivals,
      g.id k = f (b.scheduler.graph.id k)) :
    (b.under f g).handleCycle = b.handleCycle.under f g := by
  have hqueue : ∀ k ∈ b.scheduler.cycle.queue, g.id k = f (b.scheduler.graph.id k) := fun k hk =>
    hname k ((Scheduler.order_perm _ _ _).mem_iff.mp hk)
  have hbegin : (b.under f g).beginCycle = b.beginCycle.under f g := by
    have hcycle : (b.under f g).scheduler.cycle = b.scheduler.cycle.on g := Scheduler.cycle_on h
    have hready : b.scheduler.cycle.queue.map g.id =
        (b.scheduler.cycle.queue.map b.scheduler.graph.id).map f := by
      rw [List.map_map]
      exact List.map_congr_left hqueue
    unfold beginCycle
    rw [hcycle]
    exact record_under { b with scheduler := b.scheduler.cycle } g
      (congrArg (TraceEntry.cycle b.clock · b.pool.idle) hready)
  have hall := dispatchAll_under (b := b.beginCycle) h hqueue b.pool.idle
  have hbasis := basis_dispatchAll b.beginCycle b.pool.idle
  rw [← hbegin] at hall
  cases ho : b.beginCycle.dispatchAll b.pool.idle with
  | mk c error? =>
    rw [ho] at hall hbasis
    cases error? with
    | none =>
      rw [handleCycle_of_dispatchAll ho, handleCycle_of_dispatchAll (b := b.under f g) hall]
      exact rearm_under (hbasis.graph ▸ h.size)
    | some e =>
      rw [handleCycle_of_failure ho, handleCycle_of_failure (b := b.under f g) hall]
      rfl

theorem handleFinished_under {w : WorkerId} {task : TaskKey}
    (hname : b.pool.holds? w = some task → g.id task = f (b.scheduler.graph.id task))
    (hr : b.pool.holds? w = some task → b.scheduler.ReleasesAlike g task) (started : Time) :
    (b.under f g).handleFinished w task started = (b.handleFinished w task started).under f g := by
  cases hw : b.pool.holds? w with
  | none =>
    rw [handleFinished_of_free hw, handleFinished_of_free (b := b.under f g) hw, Outcome.under_mk,
      Option.map_some, apply_ite (Error.rename f)]
    rfl
  | some held =>
    by_cases he : held = task
    · subst he
      have hn := Scheduler.notify_under (hname hw) (hr hw)
      unfold handleFinished
      rw [pool_under, Pool.release_of_holds? hw]
      simp only [ne_eq, not_true_eq_false, if_false]
      rw [show (b.under f g).scheduler = b.scheduler.on g from rfl, hn]
      have hgraph := (Scheduler.SameBasis.notify b.scheduler held).graph
      rcases hx : b.scheduler.notify held with ⟨s, e | released⟩ <;> rw [hx] at hgraph
      · rfl
      · let c : Broker :=
          { b with pool := b.pool.setRunning w none, scheduler := s,
                   executed := b.executed + 1, lastCompletion := b.clock }
        have hid : g.id held = f (s.graph.id held) := by rw [hgraph, hname hw]
        exact congrArg (fun d : Broker => (⟨d, none⟩ : Outcome)) (record_under c g
          (congrArg (TraceEntry.completion b.clock · w started b.clock (b.executed + 1)) hid))
    · rw [handleFinished_of_other hw he, handleFinished_of_other (b := b.under f g) hw he]
      rfl

theorem handleEnd_under (h : g.size = b.scheduler.graph.size) :
    (b.under f g).handleEnd = b.handleEnd.under f g := by
  have hterminate : (b.under f g).terminate = b.terminate.under f g :=
    record_under { b with phase := .terminated, finishTime := some b.clock } g rfl
  rw [handleEnd_eq, handleEnd_eq]
  simp only [hasWork_under h, remaining_under h, clock_under, hterminate,
    apply_ite (Outcome.under f · g), Outcome.under_mk]
  rfl

/-- The tasks that a broker can come upon next have their new names on the other graph. -/
structure Named (f : String → String) (b : Broker) (g : Graph) : Prop where
  waiting : ∀ k ∈ b.scheduler.queue ++ b.scheduler.arrivals, g.id k = f (b.scheduler.graph.id k)
  held : ∀ w k, b.pool.holds? w = some k → g.id k = f (b.scheduler.graph.id k)

/-- An event has the same outcome on a graph that can stand in, if the same children are let go
when it tells that a worker is done. -/
theorem step_under (h : b.scheduler.graph.StandIn b.scheduler.policy f g) (hn : b.Named f g)
    (event : Event) (hr : ∀ w task started, event = .taskFinished w task started →
      b.pool.holds? w = some task → b.scheduler.ReleasesAlike g task) :
    (b.under f g).step event = (b.step event).under f g := by
  unfold step
  rw [phase_under]
  cases hp : b.phase <;> cases event <;> simp only []
  case provisioning.workerCreated w created => exact handleCreated_under b g w created
  case scheduling.nextCycle => exact handleCycle_under h hn.waiting
  case scheduling.taskFinished w task started =>
    exact handleFinished_under (hn.held w task) (hr w task started rfl) started
  case scheduling.endOfSimulation => exact handleEnd_under h.size
  all_goals rfl

theorem requestAll_under (b : Broker) (g : Graph) (created : WorkerId → Bool) :
    (b.under f g).requestAll created = (b.requestAll created).under f g := by
  let ask (c : Broker) (w : Worker) : Broker :=
    c.schedule c.clock (.workerCreated w.id (created w.id))
  have hask : ∀ (c : Broker) (w : Worker), ask (c.under f g) w = (ask c w).under f g :=
    fun _ _ => rfl
  show b.pool.workers.foldl ask (({ b with phase := .provisioning } : Broker).under f g) =
    (b.pool.workers.foldl ask { b with phase := .provisioning }).under f g
  exact Array.foldl_hom (fun c : Broker => c.under f g) hask

theorem start_under (b : Broker) (g : Graph) (p : Provisioner) :
    (b.under f g).start p = ((b.start p).map (·.under f g)).mapError (·.rename f) := by
  have hrequests := requestAll_under (f := f) b g fun w => p w = .created
  unfold requestAll at hrequests
  rw [pool_under] at hrequests
  unfold start
  rw [phase_under, pool_under, hrequests]
  split
  · rfl
  · split <;> rfl

theorem settle_under (b : Broker) (g : Graph) :
    (b.under f g).settle = b.settle.under f g := by
  unfold settle
  simp only [phase_under, events_under, clock_under, schedule_under, report_under,
    apply_ite (Progress.under f g)]
  rfl

theorem settled_under (o : Outcome) (g : Graph) :
    settled (o.under f g) = (settled o).under f g := by
  obtain ⟨b, error?⟩ := o
  cases error? with
  | none => exact settle_under b g
  | some e => rfl

/-- The next event of a run has the same outcome on the other graph, if the same children are let
go when it tells that a worker is done. -/
theorem advance_under (h : b.scheduler.graph.StandIn b.scheduler.policy f g) (hn : b.Named f g)
    (hr : ∀ time w task started rest,
      b.events.pending = (time, .taskFinished w task started) :: rest →
        b.pool.holds? w = some task → b.scheduler.ReleasesAlike g task) :
    (b.under f g).advance = b.advance.under f g := by
  cases hp : b.events.pending with
  | nil =>
    unfold advance EventQueue.pop?
    rw [events_under, hp]
    exact congrArg Progress.ended (report_under b g)
  | cons e rest =>
    obtain ⟨time, event⟩ := e
    let c : Broker := { b with clock := time, events := ⟨rest⟩ }
    have hstep : (c.under f g).step event = (c.step event).under f g := by
      refine step_under (b := c) h ⟨hn.waiting, hn.held⟩ event fun w task started he hheld => ?_
      rw [he] at hp
      exact hr time w task started rest hp hheld
    rw [advance_of_next hp, advance_of_next (b := b.under f g) hp, at_event_under, hstep,
      settled_under]

/-! ## Runs -/

/-- All tasks that a broker has to do with are tasks of its graph. -/
theorem Accounted.named {log : List Assignment} (h : b.Accounted log)
    (hin : b.scheduler.graph.StandIn b.scheduler.policy f g) : b.Named f g where
  waiting k hk := by
    refine hin.name k ((h.scheduler.ready_iff k).mp ((h.scheduler.mem_iff k).mp ?_)).1
    rw [List.append_assoc]
    exact List.mem_append_right _ hk
  held _ k hw := hin.name k (h.held_lt hw)

theorem Accounted.start {d : Broker} {provisioner : Provisioner} (h : b.Accounted [])
    (hd : b.start provisioner = .ok d) : d.Accounted [] := by
  by_cases hp : b.phase = .init
  · rw [start_of_init hp] at hd
    split at hd
    · cases hd
    · obtain rfl := Except.ok.inj hd
      exact h.requestAll hp _
  · rw [start_of_started hp] at hd
    cases hd

/-- A run goes on with the accounts in order. -/
theorem Accounted.advance {d : Broker} {log : List Assignment} (h : b.Accounted log)
    (hd : b.advance = .running d) : ∃ log, d.Accounted log := by
  obtain ⟨time, event, rest, c, hc, hsettled⟩ := exists_step_of_advance hd
  obtain ⟨⟨log', h'⟩, -, -⟩ := (h.at_event time ⟨rest⟩).step_settles event
  rw [hc] at h'
  rcases hsettled with rfl | rfl
  · exact ⟨log', h'⟩
  · exact ⟨log', h'.schedule _ _⟩

/-- A run takes the same course on a graph that can stand in, if the same children are let go of
whenever a worker is done. -/
theorem runFor_under {log : List Assignment} (h : b.Accounted log)
    (hin : b.scheduler.graph.StandIn b.scheduler.policy f g)
    (hr : ∀ (c : Broker) log, b.scheduler.SameBasis c.scheduler → c.Accounted log →
      ∀ w task, c.pool.holds? w = some task → c.scheduler.ReleasesAlike g task) (n : Nat) :
    (b.under f g).runFor n = (b.runFor n).map (renameResult f) := by
  induction n generalizing b log with
  | zero => rfl
  | succ n ih =>
    have hadv : (b.under f g).advance = b.advance.under f g :=
      advance_under hin (h.named hin) fun _ w task _ _ _ hheld =>
        hr b log (.refl _) h w task hheld
    unfold runFor
    rw [hadv]
    cases hd : b.advance with
    | ended result => rfl
    | running d =>
      have hbasis := basis_advance hd
      obtain ⟨log', h'⟩ := h.advance hd
      exact ih h' (hbasis.standIn hin) fun c log hc => hr c log (hbasis.trans hc)

theorem run?_under (h : b.Accounted [])
    (hin : b.scheduler.graph.StandIn b.scheduler.policy f g)
    (hr : ∀ (c : Broker) log, b.scheduler.SameBasis c.scheduler → c.Accounted log →
      ∀ w task, c.pool.holds? w = some task → c.scheduler.ReleasesAlike g task) (n : Nat)
    (p : Provisioner) : (b.under f g).run? n p = (b.run? n p).map (renameResult f) := by
  unfold run?
  rw [start_under]
  cases hd : b.start p with
  | error e => rfl
  | ok d =>
    have hbasis := basis_start hd
    exact runFor_under (h.start hd) (hbasis.standIn hin)
      (fun c log hc => hr c log (hbasis.trans hc)) n

/-! ## With the same names -/

theorem named_sameName (h : b.scheduler.graph.StandIn b.scheduler.policy sameName g) :
    b.Named sameName g where
  waiting _ _ := congrFun h.id_eq _
  held _ _ _ := congrFun h.id_eq _

theorem step_on (h : b.scheduler.graph.StandIn b.scheduler.policy sameName g) (event : Event)
    (hr : ∀ w task started, event = .taskFinished w task started →
      b.pool.holds? w = some task → b.scheduler.ReleasesAlike g task) :
    (b.on g).step event = (b.step event).on g := by
  rw [← under_sameName, ← outcome_under_sameName]
  exact step_under h (named_sameName h) event hr

theorem start_on (b : Broker) (g : Graph) (p : Provisioner) :
    (b.on g).start p = (b.start p).map (·.on g) := by
  rw [← under_sameName, start_under]
  cases b.start p with
  | error e => exact congrArg Except.error e.rename_sameName
  | ok c => exact congrArg Except.ok (c.under_sameName g)

theorem advance_on (h : b.scheduler.graph.StandIn b.scheduler.policy sameName g)
    (hr : ∀ time w task started rest,
      b.events.pending = (time, .taskFinished w task started) :: rest →
        b.pool.holds? w = some task → b.scheduler.ReleasesAlike g task) :
    (b.on g).advance = b.advance.on g := by
  rw [← under_sameName, ← progress_under_sameName]
  exact advance_under h (named_sameName h) hr

/-! ## Calls -/

theorem basis_call (b : Broker) (c : Call) :
    b.scheduler.SameBasis (b.call c).broker.scheduler := by
  cases c with
  | start created =>
    simp only [call]
    cases hs : b.start (.answering created) with
    | error e => exact .refl _
    | ok c => exact basis_start hs
  | step event => exact basis_step b event

theorem call_on (h : b.scheduler.graph.StandIn b.scheduler.policy sameName g)
    (hr : ∀ k, b.scheduler.ReleasesAlike g k) (c : Call) : (b.on g).call c = (b.call c).on g := by
  cases c with
  | start created =>
    simp only [call, start_on]
    cases b.start (.answering created) <;> rfl
  | step event => exact step_on h event fun _ task _ _ _ => hr task

theorem basis_after (b : Broker) (calls : List Call) :
    b.scheduler.SameBasis (b.after calls).scheduler :=
  after_induct (I := fun c => b.scheduler.SameBasis c.scheduler)
    (fun d c hd => hd.trans (basis_call d c)) (.refl _) calls

/-- Brokers on graphs of one outline that rank alike stay in the same state. -/
theorem after_on (h : b.scheduler.graph.StandIn b.scheduler.policy sameName g)
    (ho : g.outline = b.scheduler.graph.outline) (calls : List Call) :
    (b.on g).after calls = (b.after calls).on g := by
  induction calls generalizing b with
  | nil => rfl
  | cons c calls ih =>
    have hr := Scheduler.releasesAlike_of_outline ho
    have hb := basis_call b c
    have hnext := ih (hb.standIn h) (ho.trans (congrArg _ hb.graph.symm))
    show ((b.on g).call c).broker.after calls = _
    rw [call_on h hr]
    exact hnext

/-! ## Runs on graphs of one outline -/

/-- A run takes the same course on a graph of one outline that ranks alike. -/
theorem runFor_on (h : b.scheduler.graph.StandIn b.scheduler.policy sameName g)
    (ho : g.outline = b.scheduler.graph.outline) (n : Nat) : (b.on g).runFor n = b.runFor n := by
  induction n generalizing b with
  | zero => rfl
  | succ n ih =>
    have hadv := advance_on h fun _ _ task _ _ _ _ => Scheduler.releasesAlike_of_outline ho task
    unfold runFor
    rw [hadv]
    cases ha : b.advance with
    | ended result => rfl
    | running c =>
      have hc := basis_advance ha
      exact ih (hc.standIn h) (ho.trans (congrArg _ hc.graph.symm))

theorem run?_on (h : b.scheduler.graph.StandIn b.scheduler.policy sameName g)
    (ho : g.outline = b.scheduler.graph.outline) (n : Nat) (p : Provisioner) :
    (b.on g).run? n p = b.run? n p := by
  unfold run?
  rw [start_on]
  cases hs : b.start p with
  | error e => rfl
  | ok c =>
    have hc := basis_start hs
    exact runFor_on (hc.standIn h) (ho.trans (congrArg _ hc.graph.symm)) n

end Broker

/-! ## One graph for all policies -/

/-- A scheduler that was given all attributes has the roots in its queue too, and ranks alike. -/
theorem Scheduler.seeded_of_new {g g' : Graph} {policy : Policy} {s : Scheduler}
    (hs : new g policy = .ok s) (hg' : g.preprocess .all = .ok g') :
    seeded g' policy = .ok (s.on g') ∧ g'.outline = s.graph.outline ∧
      s.graph.StandIn s.policy sameName g' := by
  obtain ⟨g₀, hg₀, hseed⟩ := bind_eq_ok_iff.mp hs
  have hnew := (Graph.preprocess_eq_ok_iff.mp hg₀).1
  obtain ⟨g₁, h₁, ho₁, hp₁, hr₁⟩ := Graph.preprocess_ok hnew policy.required
  obtain ⟨g₂, h₂, ho₂, hp₂, hr₂⟩ := Graph.preprocess_ok hnew .all
  obtain rfl := Except.ok.inj (hg₀.symm.trans h₁)
  obtain rfl := Except.ok.inj (hg'.symm.trans h₂)
  have houtline : g'.outline = g₀.outline := ho₂.trans ho₁.symm
  obtain ⟨hseeded, rfl, rfl⟩ := Scheduler.seeded_on hseed hp₂ (hr₂.trans hr₁.symm)
    (Graph.ready_of_outline houtline)
  exact ⟨hseeded, houtline, .of_outline houtline (Graph.rankOf_preprocess_all hg₀ hg')⟩

/-- Attributes that a policy does not sort by never matter. The scheduler for the graph with all of
them stays in the same state as the one that derives what it needs, and gives the same results,
whatever calls are made on both; so do brokers that work with the two, and their runs. -/
theorem attributes_never_matter {g : Graph} (hg : g.preprocessed = false) (policy : Policy) :
    ∃ s g', Scheduler.new g policy = .ok s ∧ g.preprocess .all = .ok g' ∧
      Scheduler.seeded g' policy = .ok (s.on g') ∧ g'.outline = s.graph.outline ∧
      (∀ calls : List (Scheduler.Call g.size),
        (s.on g').after calls = ((s.after calls).1.on g', (s.after calls).2)) ∧
      ∀ label tiers delay,
        let b := Broker.new label s tiers delay
        let c := Broker.new label (s.on g') tiers delay
        (∀ calls, c.after calls = (b.after calls).on g' ∧
          (c.after calls).report = (b.after calls).report ∧
          ∀ call, (c.after calls).call call = ((b.after calls).call call).on g') ∧
        ∀ events provisioner, c.run? events provisioner = b.run? events provisioner := by
  obtain ⟨g₀, hg₀, -, hp₀, -⟩ := Graph.preprocess_ok hg policy.required
  obtain ⟨g', hg', -, -, -⟩ := Graph.preprocess_ok hg .all
  obtain ⟨s, hs⟩ : ∃ s, Scheduler.new g policy = .ok s :=
    ⟨_, bind_eq_ok_iff.mpr ⟨g₀, hg₀, if_pos hp₀⟩⟩
  obtain ⟨hseeded, ho, hin⟩ := Scheduler.seeded_of_new hs hg'
  refine ⟨s, g', hs, hg', hseeded, ho, Scheduler.after_on hin ho, fun label tiers delay => ?_⟩
  intro b c
  have hafter : ∀ calls, c.after calls = (b.after calls).on g' := Broker.after_on (b := b) hin ho
  refine ⟨fun calls => ⟨hafter calls, by rw [hafter, Broker.report_on], fun call => ?_⟩,
    Broker.run?_on (b := b) hin ho⟩
  have hbasis := Broker.basis_after b calls
  have hrelease : ∀ k, (b.after calls).scheduler.ReleasesAlike g' k :=
    Scheduler.releasesAlike_of_outline (ho.trans (congrArg _ hbasis.graph.symm))
  rw [hafter, Broker.call_on (hbasis.standIn hin) hrelease]

/-- Two tasks that wait for each other, after one that waits for nothing. -/
def Graph.knot : Graph := .ofDeclarations
  [.task (.new "a" "" "" 1 1), .task (.new "b" "" "" 1 1), .task (.new "c" "" "" 1 1),
    .dependency "b" ["a", "c"], .dependency "c" ["b"]]

theorem knot_attributes_never_matter : ∃ s g', Scheduler.new .knot .levelBased = .ok s ∧
    Graph.knot.preprocess .all = .ok g' ∧ ∀ events provisioner,
      (Broker.new "knot" (s.on g') [⟨1, 1⟩] 1).run? events provisioner =
        (Broker.new "knot" s [⟨1, 1⟩] 1).run? events provisioner := by
  obtain ⟨s, g', hs, hg', -, -, -, hall⟩ :=
    attributes_never_matter (g := .knot) (by decide +kernel) .levelBased
  exact ⟨s, g', hs, hg', (hall "knot" [⟨1, 1⟩] 1).2⟩

end Makespan
