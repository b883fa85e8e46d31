import Makespan.Proofs.Broker.Lockstep
import Makespan.Proofs.Simulation.Completion

/-! What a simulation knows of its workers: the speeds of those that were created, and nothing else.
The tiers that they come from, their ids and the workers that failed leave no mark on it. -/

namespace Makespan

/-! ## The created workers -/

namespace Settings

def speed (s : Settings) (w : WorkerId) : Binary64 := s.speeds.getD w 0

/-- The workers that are created, by id. -/
def created (s : Settings) (p : Provisioner) : List WorkerId :=
  (List.range s.workerCount).filter fun w => p w = .created

def createdSpeeds (s : Settings) (p : Provisioner) : List Binary64 := (s.created p).map s.speed

/-- The created workers by rank: faster ones first, equally fast ones by id. -/
def ranking (s : Settings) (p : Provisioner) : List WorkerId := fastestFirst s.speed (s.created p)

variable {s s' : Settings} {p p' : Provisioner}

theorem crew_ofTiers (s : Settings) (p : Provisioner) :
    (Pool.ofTiers s.tiers).crew (fun w => p w = .created) = s.ranking p := by
  have hspeed : (Pool.ofTiers s.tiers).speed = s.speed := funext fun w => by
    rw [Pool.speed, Pool.speed?_ofTiers, speed, List.getD_eq_getElem?_getD]
  rw [Pool.crew, hspeed, Pool.size_ofTiers]
  rfl

theorem speed?_of_mem_ranking {w : WorkerId} (h : w ∈ s.ranking p) :
    (Pool.ofTiers s.tiers).speed? w = some (s.speed w) := by
  have hw : w < s.speeds.length := by
    rw [← crew_ofTiers, Pool.mem_crew_iff, Pool.size_ofTiers] at h
    rw [length_speeds]
    exact h.1
  rw [Pool.speed?_ofTiers, speed, List.getD_eq_getElem?_getD, List.getElem?_eq_getElem hw]
  rfl

theorem createdSpeeds_ne_nil_iff :
    s.createdSpeeds p ≠ [] ↔ ∃ i < s.workerCount, p i = .created := by
  simp [createdSpeeds, created]

/-- Two crews with the same speeds. -/
def pairing (h : (s.createdSpeeds p).Perm (s'.createdSpeeds p')) : Pairing where
  left := s.ranking p
  right := s'.ranking p'
  left_nodup := crew_ofTiers s p ▸ Pool.crew_nodup _ _
  right_nodup := crew_ofTiers s' p' ▸ Pool.crew_nodup _ _
  length_eq := by simpa [ranking] using congrArg List.length (speeds_fastestFirst h)

theorem speed?_of_peers (h : (s.createdSpeeds p).Perm (s'.createdSpeeds p')) {v w : WorkerId}
    (hvw : (pairing h).Peers v w) :
    (Pool.ofTiers s'.tiers).speed? w = (Pool.ofTiers s.tiers).speed? v := by
  rw [speed?_of_mem_ranking hvw.left, speed?_of_mem_ranking hvw.right]
  exact congrArg some (hvw.eq_of_map_eq (speeds_fastestFirst h)).symm

end Settings

/-- The brokers of one workflow differ in their workers alone. -/
theorem Workflow.alike_brokers {w : Workflow} {policy : Policy} {s s' : Settings} {b c : Broker}
    (hb : w.broker policy s = .ok b) (hc : w.broker policy s' = .ok c)
    (hdelay : s'.cycleDelay = s.cycleDelay) (hscale : s'.lengthScale = s.lengthScale)
    {p p' : Provisioner} (hspeeds : (s.createdSpeeds p).Perm (s'.createdSpeeds p')) :
    Broker.Alike (Settings.pairing hspeeds) b c := by
  obtain ⟨g, hg, sched, hsched, rfl⟩ := Workflow.broker_eq_ok_iff.mp hb
  obtain ⟨g', hg', sched', hsched', rfl⟩ := Workflow.broker_eq_ok_iff.mp hc
  rw [hscale, hg] at hg'
  obtain rfl : g = g' := Except.ok.inj hg'
  rw [hsched] at hsched'
  obtain rfl : sched = sched' := Except.ok.inj hsched'
  rw [hdelay]
  exact .new w.label sched s.cycleDelay (Settings.speed?_of_peers hspeeds)

/-- A simulation depends on the workers only through the speeds of those that were created. Take two
settings with one cycle delay and one length scale, and answers to the creation requests that leave
the same speeds on both, at least one. Then one workflow under one policy either comes to reports
that tell the same, where each worker goes by its rank, or never ends on either. -/
theorem created_speeds_determine_run {rawWorkflow w : Workflow}
    (hw : rawWorkflow.validate = .ok w) (policy : Policy) {rawSettings rawSettings' s s' : Settings}
    (hs : rawSettings.validate = .ok s) (hs' : rawSettings'.validate = .ok s')
    (hdelay : s'.cycleDelay = s.cycleDelay) (hscale : s'.lengthScale = s.lengthScale)
    {p p' : Provisioner} (hp : ∀ i, p i ≠ .crashed) (hp' : ∀ i, p' i ≠ .crashed)
    (hspeeds : (s.createdSpeeds p).Perm (s'.createdSpeeds p')) (hsome : s.createdSpeeds p ≠ []) :
    (∃ r r', SimulatesTo w policy s p (.ok r) ∧ SimulatesTo w policy s' p' (.ok r') ∧
      r.SameUnder (s.ranking p).idxOf (s'.ranking p').idxOf r') ∨
    ((∀ result, ¬ SimulatesTo w policy s p result) ∧
      ∀ result, ¬ SimulatesTo w policy s' p' result) := by
  have hw := Workflow.validate_sound hw
  have hs := Settings.validate_sound hs
  have hs' := Settings.validate_sound hs'
  have hsome' : s'.createdSpeeds p' ≠ [] := fun hn => hsome (hn ▸ hspeeds).eq_nil
  have hc := Settings.createdSpeeds_ne_nil_iff.mp hsome
  have hc' := Settings.createdSpeeds_ne_nil_iff.mp hsome'
  obtain ⟨b, hb, -, hpool, hdesc, -⟩ := hw.broker_ok hs policy
  obtain ⟨b', hb', -, hpool', -, -⟩ := hw.broker_ok hs' policy
  obtain ⟨d, hd, hcourse, hiff⟩ := hw.opens hs hb (fun i _ => hp i) hc
  obtain ⟨d', hd', hcourse', hiff'⟩ := hw.opens hs' hb' (fun i _ => hp' i) hc'
  have hstep : ∀ n, Broker.Progress.Alike (Settings.pairing hspeeds) (d.progress n)
      (d'.progress n) := by
    refine ((Workflow.alike_brokers hb hb' hdelay hscale hspeeds).opened hd hd').progress ?_ ?_
      hd.phase hd'.phase hcourse hcourse'
    · rw [hpool]
      exact Settings.crew_ofTiers s p
    · rw [hpool']
      exact Settings.crew_ofTiers s' p'
  simp only [hiff, hiff']
  by_cases hend : ∃ n result, d.progress n = .ended result
  · obtain ⟨n, result, hn⟩ := hend
    have hended := hcourse.progress n
    have hboth := hstep n
    rw [hn] at hended
    obtain ⟨r, rfl⟩ := hended.ended_ok (by simpa [hpool, Pool.size_ofTiers] using hc) hw hdesc
    rw [hn] at hboth
    obtain ⟨r', hn', hsame⟩ := hboth.of_ok
    exact Or.inl ⟨r, r', ⟨n, hn⟩, ⟨n, hn'⟩, hsame⟩
  · refine Or.inr ⟨fun result ⟨n, hn⟩ => hend ⟨n, result, hn⟩, fun result ⟨n, hn⟩ => ?_⟩
    obtain ⟨result', hn'⟩ := (hstep n).ended_iff.mpr ⟨result, hn⟩
    exact hend ⟨n, result', hn'⟩

/-- One worker of speed 1 behind a faster one. -/
def Settings.fastAndSlow : Settings where
  cycleDelay := 10
  lengthScale := 1
  tiers := [⟨2, 1⟩, ⟨1, 1⟩]

/-- Without its fast worker, the larger pool does as the smaller one, and worker 1 as worker 0. -/
theorem twoInARow_on_either_pool : ∃ r r',
    SimulatesTo .twoInARow .shortestFirst .oneWorker .always (.ok r) ∧
    SimulatesTo .twoInARow .shortestFirst .fastAndSlow (.failing [0]) (.ok r') ∧
    r.SameUnder [0].idxOf [1].idxOf r' := by
  have hends : (simulate? 20 .twoInARow .shortestFirst .oneWorker .always).isSome = true := by
    decide +kernel
  obtain ⟨result, hr⟩ := Option.isSome_iff_exists.mp hends
  have hrank : Settings.oneWorker.ranking .always = [0] := by decide +kernel
  have hrank' : Settings.fastAndSlow.ranking (.failing [0]) = [1] := by decide +kernel
  have hvalid : Settings.fastAndSlow.validate = .ok .fastAndSlow := by decide +kernel
  have hspeeds : (Settings.oneWorker.createdSpeeds .always).Perm
      (Settings.fastAndSlow.createdSpeeds (.failing [0])) := by decide +kernel
  have hp : ∀ i, Provisioner.failing [0] i ≠ .crashed := by
    intro i
    unfold Provisioner.failing
    split <;> simp
  have hboth := (created_speeds_determine_run Workflow.twoInARow_validate .shortestFirst
    Settings.oneWorker_validate hvalid rfl rfl (fun _ hc => by cases hc) hp hspeeds
    (by decide +kernel)).resolve_right fun hnever => hnever.1 result ⟨20, hr⟩
  rwa [hrank, hrank'] at hboth

end Makespan
