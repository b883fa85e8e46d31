import Mathlib
import Makespan.Pool

/-! What a pool shows of its workers: the status of each and the task that it holds. Every
operation on a pool changes one of the two for one worker, or nothing. -/

namespace Makespan.Pool

/-- The task that a worker holds. -/
def holds? (p : Pool) (w : WorkerId) : Option TaskKey := (p.worker? w).bind (·.running)

def status? (p : Pool) (w : WorkerId) : Option WorkerStatus := (p.worker? w).map (·.status)

def speed? (p : Pool) (w : WorkerId) : Option Binary64 := (p.worker? w).map (·.speed)

/-- The time that a worker takes for so many instructions. -/
def executionTime (p : Pool) (w : WorkerId) (length : Nat) : Time :=
  (p.worker? w).elim 0 (·.executionTime length)

/-- Each worker stands at the place that its id names. -/
def Numbered (p : Pool) : Prop := ∀ i x, p.worker? i = some x → x.id = i

def setRunning (p : Pool) (w : WorkerId) (running : Option TaskKey) : Pool :=
  ⟨p.workers.modify w fun x => { x with running }⟩

def setStatus (p : Pool) (w : WorkerId) (status : WorkerStatus) : Pool :=
  ⟨p.workers.modify w fun x => { x with status }⟩

theorem worker?_lt {p : Pool} {w : WorkerId} {x : Worker} (h : p.worker? w = some x) :
    w < p.size := (Array.getElem?_eq_some_iff.mp h).1

theorem lt_of_holds? {p : Pool} {w : WorkerId} {k : TaskKey} (h : p.holds? w = some k) :
    w < p.size := by
  obtain ⟨x, hx, -⟩ := Option.bind_eq_some_iff.mp h
  exact worker?_lt hx

theorem lt_of_status? {p : Pool} {w : WorkerId} {s : WorkerStatus} (h : p.status? w = some s) :
    w < p.size := by
  obtain ⟨x, hx, -⟩ := Option.map_eq_some_iff.mp h
  exact worker?_lt hx

theorem exists_worker {p : Pool} {w : WorkerId} (h : w < p.size) : ∃ x, p.worker? w = some x :=
  ⟨_, Array.getElem?_eq_getElem h⟩

/-! ## The two changes -/

theorem worker?_setRunning (p : Pool) (w v : WorkerId) (r : Option TaskKey) :
    (p.setRunning w r).worker? v =
      (p.worker? v).map fun x => { x with running := if v = w then r else x.running } := by
  simp only [worker?, setRunning, Array.getElem?_modify]
  by_cases h : w = v
  · simp [h]
  · simp [h, Ne.symm h]

theorem worker?_setStatus (p : Pool) (w v : WorkerId) (s : WorkerStatus) :
    (p.setStatus w s).worker? v =
      (p.worker? v).map fun x => { x with status := if v = w then s else x.status } := by
  simp only [worker?, setStatus, Array.getElem?_modify]
  by_cases h : w = v
  · simp [h]
  · simp [h, Ne.symm h]

@[simp] theorem size_setRunning (p : Pool) (w : WorkerId) (r : Option TaskKey) :
    (p.setRunning w r).size = p.size := by simp [size, setRunning]

@[simp] theorem size_setStatus (p : Pool) (w : WorkerId) (s : WorkerStatus) :
    (p.setStatus w s).size = p.size := by simp [size, setStatus]

@[simp] theorem status?_setRunning (p : Pool) (w v : WorkerId) (r : Option TaskKey) :
    (p.setRunning w r).status? v = p.status? v := by
  simp [status?, worker?_setRunning, Option.map_map, Function.comp_def]

@[simp] theorem speed?_setRunning (p : Pool) (w v : WorkerId) (r : Option TaskKey) :
    (p.setRunning w r).speed? v = p.speed? v := by
  simp [speed?, worker?_setRunning, Option.map_map, Function.comp_def]

@[simp] theorem speed?_setStatus (p : Pool) (w v : WorkerId) (s : WorkerStatus) :
    (p.setStatus w s).speed? v = p.speed? v := by
  simp [speed?, worker?_setStatus, Option.map_map, Function.comp_def]

@[simp] theorem executionTime_setRunning (p : Pool) (w v : WorkerId) (r : Option TaskKey)
    (length : Nat) : (p.setRunning w r).executionTime v length = p.executionTime v length := by
  rw [executionTime, executionTime, worker?_setRunning]
  cases p.worker? v <;> rfl

theorem executionTime_of_speed? {p : Pool} {w : WorkerId} {speed : Binary64}
    (h : p.speed? w = some speed) (length : Nat) :
    p.executionTime w length = .ofNat length / speed := by
  obtain ⟨x, hx, rfl⟩ := Option.map_eq_some_iff.mp h
  unfold executionTime
  rw [hx, Option.elim_some]
  unfold Worker.executionTime
  rfl

theorem executionTime_congr {p q : Pool} {v w : WorkerId} (h : q.speed? w = p.speed? v)
    (length : Nat) : q.executionTime w length = p.executionTime v length := by
  cases hp : p.worker? v with
  | none =>
    have hq : q.worker? w = none := by simpa [speed?, hp] using h
    rw [executionTime, executionTime, hp, hq]
  | some x =>
    have hs : p.speed? v = some x.speed := by simp [speed?, hp]
    rw [executionTime_of_speed? hs, executionTime_of_speed? (h.trans hs)]

@[simp] theorem holds?_setStatus (p : Pool) (w v : WorkerId) (s : WorkerStatus) :
    (p.setStatus w s).holds? v = p.holds? v := by
  simp [holds?, worker?_setStatus, Option.bind_map]

theorem holds?_setRunning {p : Pool} {w : WorkerId} (hw : w < p.size) (v : WorkerId)
    (r : Option TaskKey) : (p.setRunning w r).holds? v = if v = w then r else p.holds? v := by
  obtain ⟨x, hx⟩ := exists_worker hw
  by_cases h : v = w
  · subst h; simp [holds?, worker?_setRunning, hx]
  · simp [holds?, worker?_setRunning, h]

/-- Freeing a worker takes away what it holds and nothing else. -/
theorem holds?_setRunning_none {p : Pool} {v w : WorkerId} {j k : TaskKey}
    (hw : p.holds? w = some k) :
    (p.setRunning w none).holds? v = some j ↔ v ≠ w ∧ p.holds? v = some j := by
  rw [holds?_setRunning (lt_of_holds? hw)]
  by_cases h : v = w <;> simp [h]

theorem status?_setStatus {p : Pool} {w : WorkerId} (hw : w < p.size) (v : WorkerId)
    (s : WorkerStatus) : (p.setStatus w s).status? v = if v = w then some s else p.status? v := by
  obtain ⟨x, hx⟩ := exists_worker hw
  by_cases h : v = w
  · subst h; simp [status?, worker?_setStatus, hx]
  · simp [status?, worker?_setStatus, h]

theorem Numbered.setRunning {p : Pool} (h : p.Numbered) (w : WorkerId) (r : Option TaskKey) :
    (p.setRunning w r).Numbered := by
  intro i x hx
  rw [worker?_setRunning] at hx
  obtain ⟨y, hy, rfl⟩ := Option.map_eq_some_iff.mp hx
  exact h i y hy

theorem Numbered.setStatus {p : Pool} (h : p.Numbered) (w : WorkerId) (s : WorkerStatus) :
    (p.setStatus w s).Numbered := by
  intro i x hx
  rw [worker?_setStatus] at hx
  obtain ⟨y, hy, rfl⟩ := Option.map_eq_some_iff.mp hx
  exact h i y hy

/-! ## The operations -/

theorem put_eq_modify {p : Pool} {w : WorkerId} {x : Worker} (hx : p.worker? w = some x)
    (f : Worker → Worker) : p.put (f x) w = ⟨p.workers.modify w f⟩ := by
  refine congrArg Pool.mk (Array.ext_getElem? fun i => ?_)
  have hw : w < p.workers.size := worker?_lt hx
  simp only [worker?] at hx
  rw [Array.getElem?_setIfInBounds, Array.getElem?_modify]
  by_cases h : w = i
  · subst h; simp only [if_true, hw, hx, Option.map_some]
  · simp only [h, if_false]

theorem put_running {p : Pool} {w : WorkerId} {x : Worker} (hx : p.worker? w = some x)
    (r : Option TaskKey) : p.put { x with running := r } w = p.setRunning w r :=
  put_eq_modify hx fun x => { x with running := r }

theorem put_status {p : Pool} {w : WorkerId} {x : Worker} (hx : p.worker? w = some x)
    (s : WorkerStatus) : p.put { x with status := s } w = p.setStatus w s :=
  put_eq_modify hx fun x => { x with status := s }

/-- Every known worker can be acknowledged, at any time. -/
theorem acknowledge_of_lt {p : Pool} {w : WorkerId} (hw : w < p.size) (created : Bool) :
    p.acknowledge w created = .ok (p.setStatus w (if created then .available else .failed)) := by
  obtain ⟨x, hx⟩ := exists_worker hw
  simp [acknowledge, worker, hx, ← put_status hx, bind, Except.bind, pure, Except.pure]

theorem acknowledge_of_not_lt {p : Pool} {w : WorkerId} (hw : ¬ w < p.size) (created : Bool) :
    p.acknowledge w created = .error (.unknownWorker w) := by
  have hx : p.worker? w = none := Array.getElem?_eq_none (not_lt.mp hw)
  simp [acknowledge, worker, hx, bind, Except.bind]

/-- Claiming an idle worker never fails. -/
theorem claim_of_idle {p : Pool} {w : WorkerId} (hs : p.status? w = some .available)
    (hr : p.holds? w = none) (task : TaskKey) :
    p.claim w task = .ok (p.setRunning w (some task)) := by
  obtain ⟨x, hx, hxs⟩ := Option.map_eq_some_iff.mp hs
  have hxr : x.running = none := by simpa [holds?, hx] using hr
  simp [claim, worker, hx, ← put_running hx, Worker.isIdle, hxs, hxr, bind, Except.bind, pure,
    Except.pure]

theorem release_of_holds? {p : Pool} {w : WorkerId} {k : TaskKey} (h : p.holds? w = some k) :
    p.release w = .ok (p.setRunning w none, k) := by
  obtain ⟨x, hx, hxr⟩ := Option.bind_eq_some_iff.mp h
  simp [release, worker, hx, ← put_running hx, hxr, bind, Except.bind, pure, Except.pure]

/-- A worker that holds nothing, or is not known, cannot be freed. -/
theorem release_of_holds?_none {p : Pool} {w : WorkerId} (h : p.holds? w = none) :
    p.release w = .error (if w < p.size then .nothingHeld w else .unknownWorker w) := by
  by_cases hw : w < p.size
  · obtain ⟨x, hx⟩ := exists_worker hw
    have hxr : x.running = none := by simpa [holds?, hx] using h
    simp [release, worker, hx, hxr, hw, bind, Except.bind, throw, throwThe, MonadExceptOf.throw]
  · have hx : p.worker? w = none := Array.getElem?_eq_none (not_lt.mp hw)
    simp [release, worker, hx, hw, bind, Except.bind]

/-! ## The views -/

theorem busy_eq_zero_iff {p : Pool} : p.busy = 0 ↔ ∀ w, p.holds? w = none := by
  rw [busy, Array.countP_eq_zero]
  constructor
  · intro h w
    cases hx : p.worker? w with
    | none => simp [holds?, hx]
    | some x => simpa [holds?, hx] using h x (Array.mem_of_getElem? hx)
  · intro h x hx
    obtain ⟨w, hw⟩ := Array.mem_iff_getElem?.mp hx
    have hh := h w
    have hw : p.worker? w = some x := hw
    simpa [holds?, hw] using hh

theorem usable_eq_zero_iff {p : Pool} : p.usable = 0 ↔ ∀ w, p.status? w ≠ some .available := by
  rw [usable, Array.countP_eq_zero]
  constructor
  · intro h w hs
    obtain ⟨x, hx, hxs⟩ := Option.map_eq_some_iff.mp hs
    exact h x (Array.mem_of_getElem? hx) (by simpa using hxs)
  · intro h x hx hs
    obtain ⟨w, hw⟩ := Array.mem_iff_getElem?.mp hx
    exact h w (Option.map_eq_some_iff.mpr ⟨x, hw, by simpa using hs⟩)

theorem Numbered.mem_idle_iff {p : Pool} (h : p.Numbered) {w : WorkerId} :
    w ∈ p.idle ↔ p.status? w = some .available ∧ p.holds? w = none := by
  simp only [idle, List.mem_map, List.mem_mergeSort, List.mem_filter, Array.mem_toList_iff]
  constructor
  · rintro ⟨x, ⟨hx, hi⟩, rfl⟩
    obtain ⟨i, hi'⟩ := Array.mem_iff_getElem?.mp hx
    obtain rfl := h i x hi'
    have hx : p.worker? x.id = some x := hi'
    simpa [Worker.isIdle, status?, holds?, hx] using hi
  · rintro ⟨hs, hr⟩
    obtain ⟨x, hx, hxs⟩ := Option.map_eq_some_iff.mp hs
    have hxr : x.running = none := by simpa [holds?, hx] using hr
    exact ⟨x, ⟨Array.mem_of_getElem? hx, by simp [Worker.isIdle, hxs, hxr]⟩, h w x hx⟩

theorem Numbered.ids {p : Pool} (h : p.Numbered) :
    p.workers.toList.map (·.id) = List.range p.size := by
  refine List.ext_getElem (by simp [size]) fun i hi _ => ?_
  have hi : i < p.workers.size := by simpa using hi
  simpa using h i _ (Array.getElem?_eq_getElem hi)

theorem Numbered.idle_nodup {p : Pool} (h : p.Numbered) : p.idle.Nodup := by
  have hids : (p.workers.toList.map (·.id)).Nodup := h.ids ▸ List.nodup_range
  have hp := (List.mergeSort_perm (p.workers.toList.filter (·.isIdle)) Worker.precedes).map (·.id)
  rw [idle, hp.nodup_iff]
  exact hids.sublist (List.filter_sublist.map _)

/-! ## A new pool -/

theorem worker?_ofTiers {tiers : List Tier} {w : WorkerId} {x : Worker}
    (h : (ofTiers tiers).worker? w = some x) :
    x.id = w ∧ x.status = .requested ∧ x.running = none := by
  simp only [worker?, ofTiers, Array.getElem?_mapIdx] at h
  obtain ⟨s, -, rfl⟩ := Option.map_eq_some_iff.mp h
  exact ⟨rfl, rfl, rfl⟩

theorem ofTiers_numbered (tiers : List Tier) : (ofTiers tiers).Numbered :=
  fun _ _ h => (worker?_ofTiers h).1

theorem holds?_ofTiers (tiers : List Tier) (w : WorkerId) : (ofTiers tiers).holds? w = none := by
  cases hx : (ofTiers tiers).worker? w with
  | none => simp [holds?, hx]
  | some x => simp [holds?, hx, (worker?_ofTiers hx).2.2]

end Makespan.Pool
