import Mathlib.Data.List.Count
import Mathlib.Data.List.Nodup
import Makespan.Proofs.Files.Path
import Makespan.Sweep.Run

/-! Labels of rows. A file name is a path too, with itself as file name. So no path that is spelled
out as a label can be the file name that labels another row, and different paths have different
labels. -/

namespace Makespan

namespace Path

/-- The name of a file is a path with the same file name. -/
theorem fileName?_fileName {path s : String} (h : fileName? path = some s) :
    fileName? s = some s := by
  have hmem : .name s ∈ components path := by
    unfold fileName? at h
    split at h
    · rename_i hlast
      obtain rfl := Option.some.inj h
      exact List.mem_of_getLast? hlast
    · cases h
  have hjoin := fileName?_join "" (isName_of_mem_components hmem)
  rwa [join, if_pos (by simp), String.empty_append] at hjoin

end Path

namespace Sweep

/-- Where a label is the name of a file, that name is its own short label. -/
theorem shortLabel_cases (path : String) :
    shortLabel path = path ∨ shortLabel (shortLabel path) = shortLabel path := by
  unfold shortLabel
  cases h : Path.fileName? path with
  | none => exact Or.inl rfl
  | some s =>
    refine Or.inr ?_
    rw [Option.getD_some, Path.fileName?_fileName h, Option.getD_some]

/-- A value that a function takes at two places of a list is counted twice among its values. -/
theorem one_lt_count_map {f : String → String} {l : List String} {a b : String} (ha : a ∈ l)
    (hb : b ∈ l) (hab : a ≠ b) (h : f a = f b) : 1 < (l.map f).count (f a) := by
  rw [List.count_eq_countP, List.countP_map, List.countP_eq_length_filter]
  by_contra hle
  have ha : a ∈ l.filter ((· == f a) ∘ f) := List.mem_filter.mpr ⟨ha, by simp⟩
  have hb : b ∈ l.filter ((· == f a) ∘ f) := List.mem_filter.mpr ⟨hb, by simp [h]⟩
  have hone : ∀ x ∈ l.filter ((· == f a) ∘ f), ∀ y ∈ l.filter ((· == f a) ∘ f), x = y := by
    match hl : l.filter ((· == f a) ∘ f) with
    | [] => simp
    | [z] => simp
    | _ :: _ :: _ => simp [hl] at hle
  exact hab (hone a ha b hb)

/-- No two different paths get the same label. -/
theorem labels_nodup {paths : List String} (h : paths.Nodup) : (labels paths).Nodup := by
  refine h.map_on fun a ha b hb hab => ?_
  by_contra hne
  have hlong : ∀ {p q : String}, p ∈ paths → q ∈ paths → p ≠ q → shortLabel p = shortLabel q →
      1 < (paths.map shortLabel).count (shortLabel p) := one_lt_count_map
  -- a path that is spelled out is not the file name of another row
  have hspelled : ∀ {p q : String}, p ∈ paths → q ∈ paths → p ≠ q → p = shortLabel q →
      1 < (paths.map shortLabel).count (shortLabel q) := by
    intro p q hp hq hpq hlabel
    rcases shortLabel_cases q with hq' | hq'
    · exact absurd (hlabel.trans hq') hpq
    · rw [← hlabel] at hq'
      rw [← hlabel, ← hq']
      exact hlong hp hq hpq (hq'.trans hlabel)
  split at hab <;> rename_i hca <;> split at hab <;> rename_i hcb
  · exact hne hab
  · exact hcb (hspelled ha hb hne hab)
  · exact hca (hspelled hb ha (Ne.symm hne) hab.symm)
  · exact hca (hlong ha hb hne hab)

end Sweep

end Makespan
