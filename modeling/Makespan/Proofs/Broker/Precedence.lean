import Mathlib
import Makespan.Broker.Trace

/-! Laws of a trace that say what may stand after what. -/

namespace Makespan

/-- Every element of a list is right after the elements before it. -/
def Along {α : Type} (P : List α → α → Prop) (l : List α) : Prop :=
  ∀ before a after, l = before ++ a :: after → P before a

section Along

variable {α : Type} {P : List α → α → Prop} {l : List α}

theorem Along.nil : Along P [] := by
  intro before a after h
  simp at h

theorem eq_snoc_cases {a b : α} {before after : List α} (h : l ++ [b] = before ++ a :: after) :
    (before = l ∧ a = b) ∨ ∃ rest, l = before ++ a :: rest := by
  rcases List.eq_nil_or_concat after with rfl | ⟨rest, c, rfl⟩
  · obtain ⟨hl, hb⟩ := List.append_inj' h rfl
    exact Or.inl ⟨hl.symm, by simpa using hb.symm⟩
  · rw [List.concat_eq_append, ← List.cons_append, ← List.append_assoc] at h
    exact Or.inr ⟨rest, (List.append_inj' h rfl).1⟩

theorem along_snoc_iff {b : α} : Along P (l ++ [b]) ↔ Along P l ∧ P l b := by
  constructor
  · intro h
    refine ⟨fun before a after hl => ?_, h l b [] rfl⟩
    exact h before a (after ++ [b]) (by rw [hl]; simp)
  · rintro ⟨h, hb⟩ before a after hl
    obtain ⟨rfl, rfl⟩ | ⟨rest, hr⟩ := eq_snoc_cases hl
    · exact hb
    · exact h before a rest hr

theorem Along.mono {Q : List α → α → Prop} (h : Along P l) (hPQ : ∀ before a, P before a → Q before a) :
    Along Q l := fun before a after hl => hPQ before a (h before a after hl)

/-- What never repeats what is behind it occurs once. -/
theorem Along.nodup_filterMap {β : Type} {f : α → Option β}
    (h : Along (fun before a => ∀ x, f a = some x → x ∉ before.filterMap f) l) :
    (l.filterMap f).Nodup := by
  induction l using List.reverseRecOn with
  | nil => simp
  | append_singleton l b ih =>
    obtain ⟨hl, hb⟩ := along_snoc_iff.mp h
    rw [List.filterMap_append, List.nodup_append]
    refine ⟨ih hl, ?_, ?_⟩
    · cases hf : f b <;> simp [hf]
    · intro x hx y hy hxy
      have hy : f b = some y := by
        cases hf : f b with
        | none => simp [hf] at hy
        | some z => simpa [List.filterMap_cons, hf, eq_comm] using hy
      exact hb y hy (hxy ▸ hx)

end Along

/-! ## Views of a trace -/

namespace TraceEntry

def isDispatch : TraceEntry → Bool
  | dispatch _ _ _ => true
  | _ => false

/-- The number that a completion carries. -/
def number? : TraceEntry → Option Nat
  | completion _ _ _ _ _ n => some n
  | _ => none

theorem filterMap_dispatched? (l : List TraceEntry) :
    l.filterMap dispatched? = (l.filter isDispatch).filterMap dispatched? := by
  rw [List.filterMap_filter]
  congr 1
  funext e
  cases e <;> rfl

theorem length_filterMap_number? (l : List TraceEntry) :
    (l.filterMap number?).length = (l.filterMap completed?).length := by
  induction l with
  | nil => rfl
  | cons e l ih => cases e <;> simpa [List.filterMap_cons, number?, completed?] using ih

end TraceEntry

end Makespan
