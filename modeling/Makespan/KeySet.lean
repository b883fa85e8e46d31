import Makespan.Error

/-! Finite sets of task keys, kept as ascending lists, so that two sets with the same members are
equal. -/

namespace Makespan

/-- Merges two ascending lists; a key of both is taken once. -/
def mergeKeys : List TaskKey → List TaskKey → List TaskKey
  | [], ys => ys
  | xs, [] => xs
  | x :: xs, y :: ys =>
    if x < y then x :: mergeKeys xs (y :: ys)
    else if y < x then y :: mergeKeys (x :: xs) ys
    else x :: mergeKeys xs ys
termination_by xs ys => xs.length + ys.length

theorem mem_mergeKeys {k : TaskKey} (xs ys : List TaskKey) :
    k ∈ mergeKeys xs ys ↔ k ∈ xs ∨ k ∈ ys := by
  fun_induction mergeKeys xs ys with
  | case1 => simp
  | case2 => simp
  | case3 x xs y ys h ih => simp only [List.mem_cons, ih]; grind
  | case4 x xs y ys h h' ih => simp only [List.mem_cons, ih]; grind
  | case5 x xs y ys h h' ih =>
    obtain rfl : x = y := Nat.le_antisymm (Nat.not_lt.1 h') (Nat.not_lt.1 h)
    simp only [List.mem_cons, ih]; grind

theorem pairwise_mergeKeys {xs ys : List TaskKey} (hx : xs.Pairwise (· < ·))
    (hy : ys.Pairwise (· < ·)) : (mergeKeys xs ys).Pairwise (· < ·) := by
  fun_induction mergeKeys xs ys with
  | case1 => exact hy
  | case2 => exact hx
  | case3 x xs y ys h ih =>
    refine List.pairwise_cons.2 ⟨fun k hk => ?_, ih (List.pairwise_cons.1 hx).2 hy⟩
    rcases (mem_mergeKeys _ _).1 hk with hk | hk
    · exact (List.pairwise_cons.1 hx).1 k hk
    · rcases List.mem_cons.1 hk with rfl | hk
      · exact h
      · exact Nat.lt_trans h ((List.pairwise_cons.1 hy).1 k hk)
  | case4 x xs y ys h h' ih =>
    refine List.pairwise_cons.2 ⟨fun k hk => ?_, ih hx (List.pairwise_cons.1 hy).2⟩
    rcases (mem_mergeKeys _ _).1 hk with hk | hk
    · rcases List.mem_cons.1 hk with rfl | hk
      · exact h'
      · exact Nat.lt_trans h' ((List.pairwise_cons.1 hx).1 k hk)
    · exact (List.pairwise_cons.1 hy).1 k hk
  | case5 x xs y ys h h' ih =>
    obtain rfl : x = y := Nat.le_antisymm (Nat.not_lt.1 h') (Nat.not_lt.1 h)
    refine List.pairwise_cons.2
      ⟨fun k hk => ?_, ih (List.pairwise_cons.1 hx).2 (List.pairwise_cons.1 hy).2⟩
    rcases (mem_mergeKeys _ _).1 hk with hk | hk
    · exact (List.pairwise_cons.1 hx).1 k hk
    · exact (List.pairwise_cons.1 hy).1 k hk

structure KeySet where
  toList : List TaskKey
  ascending : toList.Pairwise (· < ·)
  deriving DecidableEq

namespace KeySet

instance : Membership TaskKey KeySet := ⟨fun s k => k ∈ s.toList⟩

theorem mem_def {k : TaskKey} {s : KeySet} : k ∈ s ↔ k ∈ s.toList := Iff.rfl

def empty : KeySet := ⟨[], .nil⟩

instance : Inhabited KeySet := ⟨empty⟩

def singleton (k : TaskKey) : KeySet := ⟨[k], List.pairwise_singleton _ _⟩

def union (s t : KeySet) : KeySet :=
  ⟨mergeKeys s.toList t.toList, pairwise_mergeKeys s.ascending t.ascending⟩

def insert (s : KeySet) (k : TaskKey) : KeySet := (singleton k).union s

def size (s : KeySet) : Nat := s.toList.length

@[simp] theorem not_mem_empty {k : TaskKey} : ¬ k ∈ empty := List.not_mem_nil

@[simp] theorem mem_union {k : TaskKey} {s t : KeySet} : k ∈ s.union t ↔ k ∈ s ∨ k ∈ t :=
  mem_mergeKeys _ _

@[simp] theorem mem_insert {k j : TaskKey} {s : KeySet} : k ∈ s.insert j ↔ k = j ∨ k ∈ s := by
  simp [insert, singleton, mem_def, union, mem_mergeKeys]

end KeySet

end Makespan
