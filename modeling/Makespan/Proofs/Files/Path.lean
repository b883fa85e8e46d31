import Mathlib.Data.List.Lex
import Mathlib.Order.RelClasses
import Makespan.Files.Path

/-! Paths. They are in the lexicographic order of their components, and two of them are the same just
when neither comes first. A name that is joined to a path becomes its last component. -/

namespace Makespan

namespace Component

theorem lt_iff {a b : Component} :
    a.lt b = true ↔ a.rank < b.rank ∨ a.rank = b.rank ∧ a.text < b.text := by
  simp [lt]

theorem eq_of_rank_text {a b : Component} (hr : a.rank = b.rank) (ht : a.text = b.text) :
    a = b := by
  cases a <;> cases b <;> simp_all [rank, text]

instance : IsStrictTotalOrder Component fun a b => a.lt b = true where
  trichotomous a b hab hba := by
    rw [lt_iff, not_or, not_and] at hab hba
    have hr : a.rank = b.rank := Nat.le_antisymm (Nat.le_of_not_lt hba.1) (Nat.le_of_not_lt hab.1)
    have ha := String.not_lt.mp (hab.2 hr)
    have hb := String.not_lt.mp (hba.2 hr.symm)
    exact eq_of_rank_text hr (String.le_antisymm hb ha)
  irrefl a h := by
    rw [lt_iff] at h
    rcases h with h | ⟨-, h⟩
    · exact lt_irrefl _ h
    · exact String.lt_irrefl _ h
  trans a b c hab hbc := by
    rw [lt_iff] at *
    rcases hab with hab | ⟨hab, htab⟩ <;> rcases hbc with hbc | ⟨hbc, htbc⟩
    · exact Or.inl (hab.trans hbc)
    · exact Or.inl (hbc ▸ hab)
    · exact Or.inl (hab ▸ hbc)
    · exact Or.inr ⟨hab.trans hbc, String.lt_trans htab htbc⟩

/-- The root, then the dot at the start, then steps up, then names in order of their texts. -/
instance : LinearOrder Component := linearOrderOfSTO fun a b => a.lt b = true

end Component

namespace Path

/-! ## The order of paths -/

theorem leComponents_iff {as bs : List Component} : leComponents as bs = true ↔ as ≤ bs := by
  fun_induction leComponents as bs with
  | case1 bs => exact iff_of_true rfl (not_lt.mp (List.not_lt_nil bs))
  | case2 a as => exact iff_of_false Bool.false_ne_true (not_le_of_gt (List.nil_lt_cons a as))
  | case3 a as b bs ih =>
    have hlt : a.lt b = true ↔ a < b := Iff.rfl
    rw [Bool.or_eq_true, Bool.and_eq_true, decide_eq_true_eq, ih, hlt, le_iff_lt_or_eq,
      le_iff_lt_or_eq, List.cons_lt_cons_iff, List.cons.injEq]
    tauto

theorem le_iff {p q : String} : le p q = true ↔ components p ≤ components q := leComponents_iff

theorem same_iff {p q : String} : same p q = true ↔ components p = components q :=
  decide_eq_true_iff

/-! ## Slashes -/

theorem slash_not_mem_of_cut {cs piece : List Char} (h : piece ∈ cut cs) : '/' ∉ piece := by
  induction cs generalizing piece with
  | nil =>
    obtain rfl := List.mem_singleton.mp h
    exact List.not_mem_nil
  | cons c cs ih =>
    unfold cut at h
    split at h
    · rcases List.mem_cons.mp h with rfl | h
      · exact List.not_mem_nil
      · exact ih h
    · rename_i hc
      split at h
      · obtain rfl := List.mem_singleton.mp h
        simpa using Ne.symm hc
      · rename_i first rest hcut
        rcases List.mem_cons.mp h with rfl | h
        · have hfirst : '/' ∉ first := ih (by rw [hcut]; exact List.mem_cons_self)
          exact fun hm => (List.mem_cons.mp hm).elim (Ne.symm hc) hfirst
        · exact ih (by rw [hcut]; exact List.mem_cons_of_mem _ h)

theorem cut_of_no_slash {cs : List Char} (h : '/' ∉ cs) : cut cs = [cs] := by
  induction cs with
  | nil => rfl
  | cons c cs ih =>
    rw [List.mem_cons, not_or] at h
    obtain ⟨hc, hcs⟩ := h
    unfold cut
    rw [if_neg (Ne.symm hc), ih hcs]

theorem cut_ne_nil (cs : List Char) : cut cs ≠ [] := by
  fun_cases cut cs <;> simp

theorem cut_append_slash (cs ds : List Char) : cut (cs ++ '/' :: ds) = cut cs ++ cut ds := by
  induction cs with
  | nil => rfl
  | cons c cs ih =>
    rw [List.cons_append, cut, cut, ih]
    split
    · rfl
    · cases h : cut cs with
      | nil => exact absurd h (cut_ne_nil cs)
      | cons piece rest => rfl

theorem segments_ne_nil (path : String) : segments path ≠ [] := by
  rw [segments, Ne, List.map_eq_nil_iff]
  exact cut_ne_nil _

/-- A text that names an entry of a directory. -/
structure IsName (s : String) : Prop where
  no_slash : '/' ∉ s.toList
  ne_empty : s ≠ ""
  ne_here : s ≠ "."
  ne_up : s ≠ ".."

instance (s : String) : Decidable (IsName s) :=
  decidable_of_iff ('/' ∉ s.toList ∧ s ≠ "" ∧ s ≠ "." ∧ s ≠ "..")
    ⟨fun ⟨hslash, hempty, hhere, hup⟩ => ⟨hslash, hempty, hhere, hup⟩,
      fun h => ⟨h.no_slash, h.ne_empty, h.ne_here, h.ne_up⟩⟩

/-- A component that is a name is a piece between slashes that stands for no other component. -/
theorem isName_of_mem_components {path s : String} (h : .name s ∈ components path) : IsName s := by
  have hseg : ∃ t ∈ segments path, (if t = "" || t = "." then none
      else if t = ".." then some .up else some (.name t)) = some (Component.name s) := by
    rcases List.mem_append.mp h with h | h
    · split at h
      · simp at h
      · split at h <;> simp at h
    · exact List.mem_filterMap.mp h
  obtain ⟨t, ht, hs⟩ := hseg
  obtain ⟨piece, hpiece, rfl⟩ := List.mem_map.mp ht
  split at hs
  · cases hs
  · rename_i hdot
    split at hs
    · cases hs
    · rename_i hup
      obtain rfl : String.ofList piece = s := by injection Option.some.inj hs
      rw [Bool.or_eq_true, decide_eq_true_eq, decide_eq_true_eq, not_or] at hdot
      refine ⟨?_, hdot.1, hdot.2, hup⟩
      rw [String.toList_ofList]
      exact slash_not_mem_of_cut hpiece

/-! ## Names joined to a path -/

section Join

variable (dir : String) {name : String} (h : IsName name)
include h

/-- A joined name is the last segment; the others are those of the path, less an empty one at its
end. -/
theorem segments_join : ∃ front, segments (join dir name) = front ++ [name] ∧
    (segments dir = front ∨ segments dir = front ++ [""]) := by
  have hname : (cut name.toList).map String.ofList = [name] := by
    rw [cut_of_no_slash h.no_slash, List.map_singleton, String.ofList_toList]
  unfold segments join
  by_cases hempty : dir = ""
  · subst hempty
    exact ⟨[], by simpa using hname, Or.inr rfl⟩
  · by_cases hslash : dir.toList.getLast? = some '/'
    · obtain ⟨front, hfront⟩ := List.getLast?_eq_some_iff.mp hslash
      refine ⟨(cut front).map String.ofList, ?_, Or.inr ?_⟩
      · rw [if_pos (by simp [hslash]), String.toList_append, hfront, List.append_assoc,
          List.singleton_append, cut_append_slash, List.map_append, hname]
      · rw [hfront, cut_append_slash, List.map_append]
        rfl
    · refine ⟨(cut dir.toList).map String.ofList, ?_, Or.inl rfl⟩
      rw [if_neg (by simp [hempty, hslash]), String.toList_append, String.toList_append,
        List.append_assoc]
      show (cut (dir.toList ++ '/' :: name.toList)).map String.ofList = _
      rw [cut_append_slash, List.map_append, hname]

theorem isAbsolute_join : isAbsolute (join dir name) = isAbsolute dir := by
  unfold isAbsolute join
  by_cases hempty : dir = ""
  · subst hempty
    refine decide_eq_decide.mpr (iff_of_false (fun hhead => h.no_slash ?_) (by simp))
    exact List.mem_of_head? (by simpa using hhead)
  · have hne : dir.toList ≠ [] := by simpa using hempty
    split <;> simp [List.head?_append_of_ne_nil _ hne]

theorem join_ne_empty : join dir name ≠ "" := by
  unfold join
  split <;> simp [h.ne_empty]

theorem components_join : components (join dir name) = components dir ++ [.name name] := by
  obtain ⟨front, hjoin, hdir⟩ := segments_join dir h
  -- a dot at the start is one of both or of neither
  have hhead : (segments (join dir name)).head? = some "." ↔ (segments dir).head? = some "." := by
    cases front with
    | nil =>
      have hempty : segments dir = [""] := hdir.resolve_left (segments_ne_nil dir)
      simp [hjoin, hempty, h.ne_here]
    | cons s front => rcases hdir with hdir | hdir <;> simp [hjoin, hdir]
  unfold components
  rw [isAbsolute_join dir h, List.append_assoc]
  simp only [hhead]
  refine congrArg _ ?_
  rw [hjoin, List.filterMap_append]
  rcases hdir with hdir | hdir <;> simp [hdir, h.ne_empty, h.ne_here, h.ne_up]

theorem fileName?_join : fileName? (join dir name) = some name := by
  rw [fileName?, components_join dir h, List.getLast?_concat]

end Join

/-! ## Extensions -/

theorem takeWhile_no_dot {cs : List Char} (h : '.' ∉ cs) (rest : List Char) :
    (cs ++ rest).takeWhile (· ≠ '.') = cs ++ rest.takeWhile (· ≠ '.') := by
  refine List.takeWhile_append_of_pos fun c hc => decide_eq_true fun he => h ?_
  exact he ▸ hc

theorem splitName_of_no_dot {name : String} (h : '.' ∉ name.toList) :
    splitName name = (name, none) := by
  have hbehind : name.toList.reverse.takeWhile (· ≠ '.') = name.toList.reverse := by
    have hreverse : '.' ∉ name.toList.reverse := by simpa using h
    simpa using takeWhile_no_dot hreverse []
  unfold splitName
  rw [hbehind]
  simp

theorem splitName_of_dot {stem ext : String} (hext : '.' ∉ ext.toList) :
    splitName (stem ++ "." ++ ext) =
      if stem = "" then (stem ++ "." ++ ext, none) else (stem, some ext) := by
  have hreverse : (stem ++ "." ++ ext).toList.reverse =
      ext.toList.reverse ++ '.' :: stem.toList.reverse := by simp
  have hbehind : (ext.toList.reverse ++ '.' :: stem.toList.reverse).takeWhile (· ≠ '.') =
      ext.toList.reverse := by
    rw [takeWhile_no_dot (by simpa using hext)]
    simp
  have hbefore : (ext.toList.reverse ++ '.' :: stem.toList.reverse).drop
      (ext.toList.reverse.length + 1) = stem.toList.reverse := by
    rw [List.append_cons]
    exact List.drop_left' (by simp)
  unfold splitName
  simp only [hreverse, hbehind, hbefore]
  simp

/-- Only what stands behind the last dot is an extension, and only if something stands before. -/
theorem splitName_eq_some_iff {name ext : String} (hext : '.' ∉ ext.toList) :
    (splitName name).2 = some ext ↔ ∃ stem, stem ≠ "" ∧ name = stem ++ "." ++ ext := by
  constructor
  · intro h
    by_cases hdot : '.' ∈ name.toList
    · obtain ⟨behind, before, hsplit, hbehind⟩ :=
        List.eq_append_cons_of_mem (List.mem_reverse.mpr hdot)
      have hname : name = String.ofList before.reverse ++ "." ++ String.ofList behind.reverse := by
        rw [← String.toList_inj, ← List.reverse_reverse name.toList, hsplit]
        simp
      rw [hname, splitName_of_dot (by simpa using hbehind)] at h
      split at h
      · cases h
      · rename_i hstem
        exact ⟨_, hstem, hname.trans (congrArg _ (Option.some.inj h))⟩
    · rw [splitName_of_no_dot hdot] at h
      cases h
  · rintro ⟨stem, hstem, rfl⟩
    rw [splitName_of_dot hext, if_neg hstem]

end Path

end Makespan
