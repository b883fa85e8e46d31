import Makespan.Proofs.Binary64.Order
import Makespan.Proofs.Graph.WellFormed
import Makespan.Proofs.Pool.Holding
import Makespan.Settings

/-! Validated settings, and the pool that they ask for: at least one worker, each of a positive
speed, so that work never takes less than no time. -/

namespace Makespan

namespace Settings

structure Valid (s : Settings) : Prop where
  delay_positive : s.cycleDelay.Positive
  tiers_ne : s.tiers ≠ []
  speed_positive : ∀ t ∈ s.tiers, t.speed.Positive
  count_ne : ∀ t ∈ s.tiers, t.count ≠ 0

theorem positive_of_isPositive {x : Binary64} (h : isPositive x = true) : x.Positive := by
  simp only [isPositive, Bool.and_eq_true, Binary64.lt, decide_eq_true_eq] at h
  obtain ⟨hf, -, hlt⟩ := h
  rw [(Binary64.literal_nonNegative 0).signed] at hlt
  unfold Binary64.lt.signed at hlt
  split at hlt
  · omega
  · rename_i hs
    exact ⟨by simpa using hs, by simpa [Binary64.isFinite] using hf, by omega⟩

theorem checkTiers_sound {tiers : List Tier} {n : Nat} (h : checkTiers n tiers = .ok ()) :
    ∀ t ∈ tiers, t.speed.Positive ∧ t.count ≠ 0 := by
  induction tiers generalizing n with
  | nil => simp
  | cons t tiers ih =>
    unfold checkTiers at h
    split at h
    · cases h
    · rename_i hs
      split at h
      · cases h
      · rename_i hc
        rw [List.forall_mem_cons]
        exact ⟨⟨positive_of_isPositive (by simpa using hs), hc⟩, ih h⟩

theorem validate_sound {raw s : Settings} (h : raw.validate = .ok s) : s.Valid := by
  simp only [validate, check, bind_eq_ok_iff, pure_eq_ok_iff, unless_throw_eq_ok_iff] at h
  obtain ⟨_, ⟨hdelay, -, -, htiers, hcheck⟩, rfl⟩ := h
  have hcheck := checkTiers_sound hcheck
  exact ⟨positive_of_isPositive (by simpa using hdelay), htiers, fun t ht => (hcheck t ht).1,
    fun t ht => (hcheck t ht).2⟩

/-- The speeds of the workers, in the order of their ids. -/
def speeds (s : Settings) : List Binary64 :=
  s.tiers.flatMap fun t => List.replicate t.count t.speed

theorem length_speeds (s : Settings) : s.speeds.length = s.workerCount := by
  suffices h : ∀ (tiers : List Tier) (n : Nat), tiers.foldl (fun n t => n + t.count) n =
      n + (tiers.flatMap fun t => List.replicate t.count t.speed).length from
    ((h s.tiers 0).trans (Nat.zero_add _)).symm
  intro tiers
  induction tiers with
  | nil => simp
  | cons t tiers ih =>
    intro n
    rw [List.foldl_cons, ih]
    simp [Nat.add_assoc]

variable {s : Settings}

theorem Valid.positive_of_mem (h : s.Valid) {x : Binary64} (hx : x ∈ s.speeds) : x.Positive := by
  obtain ⟨t, ht, hx⟩ := List.mem_flatMap.mp hx
  exact List.eq_of_mem_replicate hx ▸ h.speed_positive t ht

theorem Valid.workerCount_pos (h : s.Valid) : 0 < s.workerCount := by
  obtain ⟨t, ht⟩ := List.exists_mem_of_ne_nil _ h.tiers_ne
  have hx : t.speed ∈ s.speeds :=
    List.mem_flatMap.mpr ⟨t, ht, List.mem_replicate.mpr ⟨h.count_ne t ht, rfl⟩⟩
  rw [← length_speeds]
  exact List.length_pos_of_mem hx

end Settings

namespace Pool

/-- A new worker has the speed of its tier. -/
theorem speed?_ofTiers (s : Settings) (w : WorkerId) :
    (ofTiers s.tiers).speed? w = s.speeds[w]? := by
  simp [speed?, worker?, ofTiers, Settings.speeds, Option.map_map, Function.comp_def]

theorem size_ofTiers (s : Settings) : (ofTiers s.tiers).size = s.workerCount := by
  rw [← Settings.length_speeds]
  simp [size, ofTiers, Settings.speeds]

theorem executionTime_ofTiers (s : Settings) (v : WorkerId) (length : Nat) :
    (ofTiers s.tiers).executionTime v length =
      (s.speeds[v]?).elim 0 fun speed => .ofNat length / speed := by
  rw [← speed?_ofTiers]
  cases hv : (ofTiers s.tiers).speed? v with
  | some speed =>
    rw [Option.elim_some]
    exact executionTime_of_speed? hv length
  | none =>
    have hx : (ofTiers s.tiers).worker? v = none := by
      simpa [speed?] using hv
    rw [executionTime, hx, Option.elim_none, Option.elim_none]

end Pool

end Makespan
