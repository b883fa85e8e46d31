import Makespan.Proofs.Workflow.FinishingOrder
import Makespan.Proofs.Workflow.Validated

/-! Which workflow descriptions are accepted. Validation refuses nothing but what is wrong by itself
or has jobs that wait for each other; where it reports such jobs, everything else is in order, and
the job that it names waits for itself. -/

namespace Makespan.Workflow

/-- Everything that validation asks for, except that no job waits for itself in the end. -/
structure Coherent (w : Workflow) : Prop where
  jobs_ne : w.jobs ≠ []
  ids_nodup : w.ids.Nodup
  runtime_ok : ∀ j ∈ w.jobs, j.runtime.isFinite = true ∧ j.runtime.lt 0 = false
  child_mem : ∀ d ∈ w.dependencies, d.child ∈ w.ids
  parent_mem : ∀ d ∈ w.dependencies, ∀ p ∈ d.parents, p ∈ w.ids
  parent_ne : ∀ d ∈ w.dependencies, ∀ p ∈ d.parents, p ≠ d.child

/-- A job that waits for itself, directly or through others. -/
def WaitsForItself (w : Workflow) (id : String) : Prop :=
  Relation.TransGen (fun p c => (p, c) ∈ w.pairs) id id

theorem onCycle_digraph_iff {w : Workflow} {id : String} :
    w.digraph.OnCycle id ↔ w.WaitsForItself id := by
  have he : w.digraph.Leads = fun p c => (p, c) ∈ w.pairs := by
    funext p c
    exact propext Digraph.mem_edges_ofPairs
  rw [Digraph.OnCycle, he]
  rfl

theorem Coherent.digraph_proper {w : Workflow} (h : w.Coherent) : w.digraph.Proper :=
  Workflow.digraph_proper h.child_mem h.parent_mem h.parent_ne

theorem Coherent.onCycle?_eq_none_iff {w : Workflow} (h : w.Coherent) :
    w.digraph.onCycle? = none ↔ ∀ id, ¬ w.WaitsForItself id := by
  rw [Digraph.onCycle?_eq_none_iff h.digraph_proper]
  exact forall_congr' fun id => not_congr onCycle_digraph_iff

/-! ## The checks before the search -/

/-- The checks of the parts, without the search for a cycle. -/
theorem coherent_iff {w : Workflow} : w.Coherent ↔
    w.jobs ≠ [] ∧ checkJobs [] w.jobs = .ok () ∧
      checkDependencies w.ids w.dependencies = .ok () := by
  rw [checkJobs_eq_ok_iff, checkDependencies_eq_ok_iff]
  constructor
  · intro h
    refine ⟨h.jobs_ne, ⟨h.ids_nodup, fun _ _ => List.not_mem_nil, h.runtime_ok⟩, fun d hd => ?_⟩
    exact ⟨h.child_mem d hd, fun p hp => ⟨h.parent_mem d hd p hp, h.parent_ne d hd p hp⟩⟩
  · rintro ⟨hne, ⟨hnodup, -, hruntime⟩, hdeps⟩
    exact
      { jobs_ne := hne
        ids_nodup := hnodup
        runtime_ok := hruntime
        child_mem := fun d hd => (hdeps d hd).1
        parent_mem := fun d hd p hp => ((hdeps d hd).2 p hp).1
        parent_ne := fun d hd p hp => ((hdeps d hd).2 p hp).2 }

theorem isCycle_of_checkJobs {seen : List String} {jobs : List Job} {f : Fault}
    (h : checkJobs seen jobs = .error f) : f.isCycle = false := by
  induction jobs generalizing seen with
  | nil => cases h
  | cons j jobs ih =>
    unfold checkJobs at h
    split at h
    · cases h; rfl
    · split at h
      · cases h; rfl
      · exact ih h

theorem isCycle_of_checkParents {ids : List String} {child : String} {parents : List String}
    {f : Fault} (h : checkParents ids child parents = .error f) : f.isCycle = false := by
  induction parents with
  | nil => cases h
  | cons p parents ih =>
    unfold checkParents at h
    split at h
    · cases h; rfl
    · split at h
      · cases h; rfl
      · exact ih h

theorem isCycle_of_checkDependencies {ids : List String} {ds : List Dependency} {f : Fault}
    (h : checkDependencies ids ds = .error f) : f.isCycle = false := by
  induction ds with
  | nil => cases h
  | cons d ds ih =>
    unfold checkDependencies at h
    by_cases hc : d.child ∉ ids
    · rw [if_pos hc] at h
      cases h; rfl
    · rw [if_neg hc] at h
      rcases bind_eq_error_iff.mp h with hp | ⟨_, -, hrest⟩
      · exact isCycle_of_checkParents hp
      · exact ih hrest

/-! ## Validation -/

theorem check_eq_ok_iff {w : Workflow} :
    w.check = .ok () ↔ w.Coherent ∧ w.digraph.onCycle? = none := by
  simp only [check, bind_eq_ok_iff, unless_throw_eq_ok_iff, checkCycles_eq_ok_iff, coherent_iff]
  constructor
  · rintro ⟨hne, _, hjobs, _, hdeps, hcycle⟩
    exact ⟨⟨hne, hjobs, hdeps⟩, hcycle⟩
  · rintro ⟨⟨hne, hjobs, hdeps⟩, hcycle⟩
    exact ⟨hne, (), hjobs, (), hdeps, hcycle⟩

/-- The search runs only where all other checks have passed. -/
theorem coherent_of_check {w : Workflow} {f : Fault} (h : w.check = .error f)
    (hf : f.isCycle = true) : w.Coherent ∧ ∃ id, f = .cycle id ∧ w.digraph.onCycle? = some id := by
  unfold check at h
  by_cases hne : w.jobs = []
  · rw [if_pos hne] at h
    cases h; cases hf
  · rw [if_neg hne] at h
    rcases bind_eq_error_iff.mp h with hjobs | ⟨_, hjobs, h⟩
    · rw [isCycle_of_checkJobs hjobs] at hf; cases hf
    · rcases bind_eq_error_iff.mp h with hdeps | ⟨_, hdeps, h⟩
      · rw [isCycle_of_checkDependencies hdeps] at hf; cases hf
      · refine ⟨coherent_iff.mpr ⟨hne, hjobs, hdeps⟩, ?_⟩
        unfold checkCycles at h
        cases hs : w.digraph.onCycle? with
        | none => rw [hs] at h; cases h
        | some id => rw [hs] at h; cases h; exact ⟨id, rfl, rfl⟩

/-- Validation hands a description back as it is. -/
theorem validate_eq_ok_iff {raw w : Workflow} :
    raw.validate = .ok w ↔ raw.check = .ok () ∧ raw = w := by
  simp only [validate, bind_eq_ok_iff, pure_eq_ok_iff]
  constructor
  · intro h
    obtain ⟨_, hcheck, hw⟩ := h
    exact ⟨hcheck, hw⟩
  · exact fun h => ⟨(), h⟩

theorem validate_eq_error_iff {w : Workflow} {f : Fault} :
    w.validate = .error f ↔ w.check = .error f := by
  rw [validate, bind_eq_error_iff]
  constructor
  · rintro (h | ⟨_, -, h⟩)
    · exact h
    · cases h
  · exact Or.inl

/-- A description is accepted just when it is coherent and no job waits for itself. A report of a
cycle comes after all other checks and names a job that waits for itself. -/
theorem validation_decides (raw : Workflow) :
    ((∃ w, raw.validate = .ok w) ↔ raw.Coherent ∧ ∀ id, ¬ raw.WaitsForItself id) ∧
      (∀ w, raw.validate = .ok w → w = raw) ∧
      ∀ f, raw.validate = .error f → f.isCycle = true →
        raw.Coherent ∧ ∃ id, f = .cycle id ∧ raw.WaitsForItself id ∧
          f.message = "Cycle detected in workflow: " ++
            ("cycle detected in workflow involving job '" ++ id ++ "'") := by
  have hcycle : raw.Coherent → (raw.digraph.onCycle? = none ↔ ∀ id, ¬ raw.WaitsForItself id) := by
    intro hc
    rw [Digraph.onCycle?_eq_none_iff hc.digraph_proper]
    exact forall_congr' fun id => not_congr onCycle_digraph_iff
  refine ⟨?_, fun w hw => (validate_eq_ok_iff.mp hw).2.symm, fun f h hf => ?_⟩
  · rw [← and_congr_right hcycle, ← check_eq_ok_iff]
    constructor
    · intro h
      obtain ⟨w, hw⟩ := h
      exact (validate_eq_ok_iff.mp hw).1
    · exact fun h => ⟨raw, validate_eq_ok_iff.mpr ⟨h, rfl⟩⟩
  · obtain ⟨hc, id, rfl, hs⟩ := coherent_of_check (validate_eq_error_iff.mp h) hf
    refine ⟨hc, id, rfl, ?_, rfl⟩
    exact onCycle_digraph_iff.mp (Digraph.onCycle_of_onCycle? hc.digraph_proper hs)

/-- Two jobs wait for each other, and a third for one of them. -/
def circle : Workflow where
  jobs := [{ id := "late", runtime := 1 }, { id := "a", runtime := 1 }, { id := "b", runtime := 2 }]
  dependencies := [⟨"late", ["b"]⟩, ⟨"a", ["b"]⟩, ⟨"b", ["a", "a"]⟩]

theorem circle_refused : circle.validate = .error (.cycle "b") ∧ circle.Coherent ∧
    circle.WaitsForItself "b" := by
  have h : circle.validate = .error (.cycle "b") := by decide +kernel
  obtain ⟨hc, id, he, hw, -⟩ := (validation_decides circle).2.2 _ h rfl
  have hid : "b" = id := Fault.cycle.inj he
  exact ⟨h, hc, hid ▸ hw⟩

end Makespan.Workflow
