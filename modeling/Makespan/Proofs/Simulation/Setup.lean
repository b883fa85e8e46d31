import Makespan.Proofs.Broker.Opening
import Makespan.Proofs.Settings.Validated
import Makespan.Proofs.Workflow.Validated

/-! What a simulation starts from. A validated workflow and validated settings always give a broker,
and whatever the creation requests are answered, its run stays on course. -/

namespace Makespan

theorem Provisioner.answering_eq {p : Provisioner} (hp : ∀ i, p i ≠ .crashed) :
    Provisioner.answering (fun i => p i = .created) = p := by
  funext i
  have hi := hp i
  unfold answering
  cases h : p i <;> simp_all

section

variable {w : Workflow} {policy : Policy} {settings : Settings} {b c : Broker} {p : Provisioner}
  (hb : w.broker policy settings = .ok b) (n : Nat)
include hb

theorem simulate?_of_broker (p : Provisioner) :
    simulate? n w policy settings p = b.run? n p := by
  unfold simulate?
  rw [hb]

theorem simulate?_of_start (hs : b.start p = .ok c) :
    simulate? n w policy settings p = c.runFor n := by
  rw [simulate?_of_broker hb, Broker.run?, hs]

theorem simulate?_of_failed_start {e : Error} (hs : b.start p = .error e) :
    simulate? n w policy settings p = some (.error e) := by
  rw [simulate?_of_broker hb, Broker.run?, hs]

end

/-- A simulation is the run of its broker. -/
theorem simulate?_eq {w : Workflow} {policy : Policy} {settings : Settings} {b : Broker}
    (hb : w.broker policy settings = .ok b) (hi : b.phase = .init) {p : Provisioner}
    (hp : ∀ i, p i ≠ .crashed) (n : Nat) :
    simulate? n w policy settings p = (b.requestAll fun i => p i = .created).runFor n := by
  have hstart := Broker.start_answering hi fun i => p i = .created
  rw [Provisioner.answering_eq hp] at hstart
  exact simulate?_of_start hb n hstart

namespace Broker

/-- A broker starts with requests for all its workers, unless one of the requests fails. -/
theorem start_cases {b : Broker} (hi : b.phase = .init) {settings : Settings}
    (hpool : b.pool = .ofTiers settings.tiers) (p : Provisioner) :
    b.start p = .error .provisioningCrashed ∧ (∃ i < settings.workerCount, p i = .crashed) ∨
      b.start p = .ok (b.requestAll fun i => p i = .created) := by
  rw [start_of_init hi, hpool]
  split
  · rename_i hany
    obtain ⟨x, hx, hcrashed⟩ := Array.any_eq_true'.mp hany
    obtain ⟨i, hlt, rfl⟩ := Array.mem_iff_getElem.mp hx
    have hid := (Pool.worker?_ofTiers (Array.getElem?_eq_getElem hlt)).1
    rw [hid, decide_eq_true_eq] at hcrashed
    exact Or.inl ⟨rfl, i, Pool.size_ofTiers settings ▸ hlt, hcrashed⟩
  · exact Or.inr rfl

theorem start_eq {b : Broker} (hi : b.phase = .init) {settings : Settings}
    (hpool : b.pool = .ofTiers settings.tiers) {p : Provisioner}
    (hp : ∀ i < settings.workerCount, p i ≠ .crashed) :
    b.start p = .ok (b.requestAll fun i => p i = .created) :=
  (start_cases hi hpool p).resolve_left fun ⟨_, i, hlt, hcrashed⟩ => hp i hlt hcrashed

/-- A new broker under validated settings. -/
theorem new_paced {settings : Settings} (hs : settings.Valid) (label : String) (s : Scheduler) :
    (new label s settings.tiers settings.cycleDelay).Paced where
  delay := hs.delay_positive.nonNegative
  duration w n := by
    show ((Pool.ofTiers settings.tiers).executionTime w n).NonNegative
    rw [Pool.executionTime_ofTiers]
    cases hw : settings.speeds[w]? with
    | some speed =>
      rw [Option.elim_some]
      exact (Binary64.ofNat_nonNegative n).div (hs.positive_of_mem (List.mem_of_getElem? hw))
    | none =>
      rw [Option.elim_none]
      exact Binary64.literal_nonNegative 0

theorem new_course {settings : Settings} (hs : settings.Valid) {label : String} {s : Scheduler}
    (h : (new label s settings.tiers settings.cycleDelay).Accounted [])
    (created : WorkerId → Bool) :
    Course created (new label s settings.tiers settings.cycleDelay)
      (.running ((new label s settings.tiers settings.cycleDelay).requestAll created)) := by
  have hsetup := SameSetup.requestAll (new label s settings.tiers settings.cycleDelay) created
  have hsize : (new label s settings.tiers settings.cycleDelay).pool.size = settings.workerCount :=
    Pool.size_ofTiers settings
  refine .provisioning hsetup ?_
    (Provisioning.requestAll h rfl (new_paced hs label s) rfl rfl rfl rfl)
  rw [hsetup.size, hsize]
  exact hs.workerCount_pos

/-- The tasks of a described workflow never wait for each other. -/
theorem Stuck.false_of_valid {created : WorkerId → Bool} {b : Broker} {log : List Assignment}
    (h : Stuck created b log) {w : Workflow} (hw : w.Valid) {scale : Binary64}
    (hd : w.Describes scale b.scheduler.graph) : False := by
  obtain ⟨number, hn⟩ := hw.exists_numbering
  refine h.false (fun k => number (b.scheduler.graph.id k)) fun k p hp => ?_
  exact hn _ _ ((hd.edge_iff p k).mp hp).2.2

theorem SameSetup.not_stuck {created : WorkerId → Bool} {b c : Broker} {log : List Assignment}
    (h : SameSetup b c) {w : Workflow} (hw : w.Valid) {scale : Binary64}
    (hd : w.Describes scale b.scheduler.graph) : ¬ Stuck created c log := by
  intro hstuck
  rw [← h.graph] at hd
  exact hstuck.false_of_valid hw hd

theorem exists_created {b : Broker} {settings : Settings} (hpool : b.pool = .ofTiers settings.tiers)
    {p : Provisioner} (hc : ∃ i < settings.workerCount, p i = .created) :
    ∃ w < b.pool.size, decide (p w = .created) = true := by
  rw [hpool, Pool.size_ofTiers]
  simpa using hc

end Broker

/-- A validated workflow always gives a broker, and its run stays on course. -/
theorem Workflow.Valid.broker_ok {w : Workflow} (hw : w.Valid) {settings : Settings}
    (hs : settings.Valid) (policy : Policy) :
    ∃ b, w.broker policy settings = .ok b ∧ b.phase = .init ∧
      b.pool = .ofTiers settings.tiers ∧ w.Describes settings.lengthScale b.scheduler.graph ∧
      ∀ created, Broker.Course created b (.running (b.requestAll created)) := by
  obtain ⟨g, hg, hdesc, hpre⟩ := hw.graph_ok settings.lengthScale
  obtain ⟨s, hnew, ho, -, ha, hne, hc⟩ := Scheduler.new_ok hdesc.wellFormed hpre policy
  have hacc := Broker.new_accounted ha hne hc w.label settings.tiers settings.cycleDelay
  refine ⟨.new w.label s settings.tiers settings.cycleDelay, ?_, rfl, rfl, hdesc.of_outline ho,
    Broker.new_course hs hacc⟩
  unfold Workflow.broker
  exact bind_eq_ok_iff.mpr ⟨g, hg, bind_eq_ok_iff.mpr ⟨s, hnew, rfl⟩⟩

/-! ## Where a simulation leads -/

/-- What a simulation comes to, once it may take enough events. -/
def SimulatesTo (w : Workflow) (policy : Policy) (settings : Settings) (provisioner : Provisioner)
    (result : Except Error Report) : Prop :=
  ∃ events, simulate? events w policy settings provisioner = some result

theorem Broker.runFor_mono {b : Broker} {m n : Nat} {result : Except Error Report}
    (h : b.runFor m = some result) (hmn : m ≤ n) : b.runFor n = some result := by
  obtain ⟨k, rfl⟩ := Nat.exists_eq_add_of_le hmn
  rw [runFor_eq, Progress.result?_eq_some_iff] at h ⊢
  exact progress_add_of_ended h k

theorem simulate?_mono {w : Workflow} {policy : Policy} {settings : Settings}
    {provisioner : Provisioner} {m n : Nat} {result : Except Error Report}
    (h : simulate? m w policy settings provisioner = some result) (hmn : m ≤ n) :
    simulate? n w policy settings provisioner = some result := by
  unfold simulate? at h ⊢
  cases hb : w.broker policy settings with
  | error e => rwa [hb] at h
  | ok b =>
    simp only [hb, Broker.run?] at h ⊢
    cases hs : b.start provisioner with
    | error e => rwa [hs] at h
    | ok b' =>
      rw [hs] at h
      exact Broker.runFor_mono h hmn

/-- A simulation comes to one thing at most. -/
theorem SimulatesTo.unique {w : Workflow} {policy : Policy} {settings : Settings}
    {provisioner : Provisioner} {r r' : Except Error Report}
    (h : SimulatesTo w policy settings provisioner r)
    (h' : SimulatesTo w policy settings provisioner r') : r = r' := by
  obtain ⟨m, hm⟩ := h
  obtain ⟨n, hn⟩ := h'
  have hm := simulate?_mono hm (le_max_left m n)
  rw [simulate?_mono hn (le_max_right m n)] at hm
  exact (Option.some.inj hm).symm

theorem Workflow.broker_eq_ok_iff {w : Workflow} {policy : Policy} {settings : Settings}
    {b : Broker} : w.broker policy settings = .ok b ↔
      ∃ g, w.graph settings.lengthScale = .ok g ∧ ∃ s, Scheduler.new g policy = .ok s ∧
        .new w.label s settings.tiers settings.cycleDelay = b := by
  unfold broker
  simp only [bind_eq_ok_iff, pure_eq_ok_iff]

theorem Workflow.trace_of_broker {w : Workflow} {policy : Policy} {settings : Settings}
    {b : Broker} (hb : w.broker policy settings = .ok b) : b.trace = #[] := by
  obtain ⟨g, -, s, -, rfl⟩ := broker_eq_ok_iff.mp hb
  rfl

/-- If there is any worker, a simulation leads where its broker is led by the first tick. -/
theorem Workflow.Valid.opens {w : Workflow} (hw : w.Valid) {settings : Settings}
    (hs : settings.Valid) {policy : Policy} {b : Broker} (hb : w.broker policy settings = .ok b)
    {p : Provisioner} (hp : ∀ i < settings.workerCount, p i ≠ .crashed)
    (hc : ∃ i < settings.workerCount, p i = .created) :
    ∃ d, Broker.Opened b d ∧ Broker.Course (fun i => p i = .created) b (.running d) ∧
      ∀ result, SimulatesTo w policy settings p result ↔ ∃ n, d.progress n = .ended result := by
  obtain ⟨b', hb', hi, hpool, -, hcourse⟩ := hw.broker_ok hs policy
  obtain rfl : b = b' := Except.ok.inj (hb.symm.trans hb')
  have hstart := Broker.start_eq hi hpool hp
  obtain ⟨m, d, hd, hopened⟩ := (hcourse _).opens (b.phase_requestAll _)
    (.requestAll (Workflow.trace_of_broker hb) _) (Broker.exists_created hpool hc)
  refine ⟨d, hopened, hd ▸ (hcourse _).progress m, fun result => ?_⟩
  unfold SimulatesTo
  simp only [simulate?_of_start hb _ hstart, Broker.runFor_eq, Broker.Progress.result?_eq_some_iff]
  constructor
  · intro ⟨n, hn⟩
    exact ⟨n, Broker.progress_rest hd hn⟩
  · intro ⟨n, hn⟩
    exact ⟨m + n, (Broker.progress_add hd n).trans hn⟩

/-! ## A small simulation -/

/-- Two jobs, one after the other; the first takes one worker of speed 1 just ten seconds. -/
def Workflow.twoInARow : Workflow where
  jobs := [{ id := "a", runtime := 10 }, { id := "b", runtime := 2 }]
  dependencies := [⟨"b", ["a"]⟩]

/-- One worker of speed 1, and a tick every ten seconds. -/
def Settings.oneWorker : Settings where
  cycleDelay := 10
  lengthScale := 1
  tiers := [⟨1, 1⟩]

theorem Workflow.twoInARow_validate : twoInARow.validate = .ok twoInARow := by decide +kernel

theorem Settings.oneWorker_validate : oneWorker.validate = .ok oneWorker := by decide +kernel

end Makespan
