import Mathlib.Data.List.Nodup
import Makespan.Files.Tree
import Makespan.Proofs.Files.Path

/-! Directory trees. The names of a directory's entries are distinct, so that a name leads to one
entry, in whatever order the entries are listed. -/

namespace Makespan

namespace FileTree

/-- A tree as there can be one: the entries of a directory have names, and no two have the same. -/
inductive Proper : FileTree → Prop
  | file (bytes : ByteArray) : Proper (file bytes)
  | dir {entries : List (String × FileTree)} : (entries.map (·.1)).Nodup →
      (∀ e ∈ entries, Path.IsName e.1) → (∀ e ∈ entries, Proper e.2) → Proper (dir entries)

/-- The names lead from a tree to a file in it. -/
inductive HasFile : FileTree → List String → Prop
  | here (bytes : ByteArray) : HasFile (file bytes) []
  | inside {name : String} {t : FileTree} {entries : List (String × FileTree)}
      {names : List String} : (name, t) ∈ entries → HasFile t names →
      HasFile (dir entries) (name :: names)

/-- The same tree with its directories listed in another order. -/
inductive Relisted : FileTree → FileTree → Prop
  | refl (t : FileTree) : Relisted t t
  | trans {t u v : FileTree} : Relisted t u → Relisted u v → Relisted t v
  | perm {entries entries' : List (String × FileTree)} : entries.Perm entries' →
      Relisted (dir entries) (dir entries')
  | entry {t t' : FileTree} (name : String) (front back : List (String × FileTree)) :
      Relisted t t' →
      Relisted (dir (front ++ (name, t) :: back)) (dir (front ++ (name, t') :: back))

/-! ## Entries -/

def listing : FileTree → List (String × FileTree)
  | dir entries => entries
  | file _ => []

theorem mem_listing_of_entry {t u : FileTree} {name : String} (h : t.entry? name = some u) :
    (name, u) ∈ t.listing := by
  cases t with
  | file => cases h
  | dir entries =>
    obtain ⟨e, he, rfl⟩ := Option.map_eq_some_iff.mp h
    have hname : e.1 = name := by simpa using List.find?_some he
    exact hname ▸ List.mem_of_find?_eq_some he

namespace Proper

variable {t : FileTree} (h : t.Proper)
include h

theorem names_nodup : (t.listing.map (·.1)).Nodup := by
  cases h with
  | file => exact List.nodup_nil
  | dir hnodup => exact hnodup

theorem isName {e : String × FileTree} (he : e ∈ t.listing) : Path.IsName e.1 := by
  cases h with
  | file => cases he
  | dir _ hnames => exact hnames e he

theorem of_mem {e : String × FileTree} (he : e ∈ t.listing) : e.2.Proper := by
  cases h with
  | file => cases he
  | dir _ _ hall => exact hall e he

/-- A name leads to the one entry that has it. -/
theorem entry?_eq_some_iff {name : String} {u : FileTree} :
    t.entry? name = some u ↔ (name, u) ∈ t.listing := by
  refine ⟨mem_listing_of_entry, fun hm => ?_⟩
  cases t with
  | file => cases hm
  | dir entries =>
    cases hfind : entries.find? (·.1 = name) with
    | none =>
      have hnone := List.find?_eq_none.mp hfind (name, u) hm
      simp at hnone
    | some e =>
      have hname : e.1 = name := by simpa using List.find?_some hfind
      have hsame : e = (name, u) :=
        List.inj_on_of_nodup_map h.names_nodup (List.mem_of_find?_eq_some hfind) hm hname
      show (entries.find? (·.1 = name)).map (·.2) = some u
      rw [hfind, Option.map_some, hsame]

end Proper

theorem hasFile_file_iff {bytes : ByteArray} {names : List String} :
    (file bytes).HasFile names ↔ names = [] := by
  refine ⟨fun h => ?_, fun h => h ▸ .here bytes⟩
  cases h
  rfl

theorem hasFile_dir_iff {entries : List (String × FileTree)} {names : List String} :
    (dir entries).HasFile names ↔
      ∃ e ∈ entries, ∃ rest, names = e.1 :: rest ∧ e.2.HasFile rest := by
  constructor
  · intro h
    cases h with
    | inside hm h => exact ⟨_, hm, _, rfl, h⟩
  · rintro ⟨e, he, rest, rfl, h⟩
    exact .inside he h

theorem hasFile_cons_iff {e : String × FileTree} {rest : List (String × FileTree)}
    {names : List String} : (dir (e :: rest)).HasFile names ↔
      (∃ inner, names = e.1 :: inner ∧ e.2.HasFile inner) ∨ (dir rest).HasFile names := by
  simp [hasFile_dir_iff]

theorem HasFile.isName {t : FileTree} {names : List String} (h : t.HasFile names)
    (ht : t.Proper) : ∀ name ∈ names, Path.IsName name := by
  induction h with
  | here => simp
  | inside hm _ ih => exact List.forall_mem_cons.mpr ⟨ht.isName hm, ih (ht.of_mem hm)⟩

/-! ## Other listings -/

namespace Relisted

variable {t t' : FileTree} (h : t.Relisted t')
include h

theorem symm : t'.Relisted t := by
  induction h with
  | refl t => exact .refl t
  | trans _ _ ih ih' => exact .trans ih' ih
  | perm h => exact .perm h.symm
  | entry name front back _ ih => exact .entry name front back ih

theorem isDir_eq : t'.isDir = t.isDir := by
  induction h with
  | refl => rfl
  | trans _ _ ih ih' => exact ih'.trans ih
  | perm => rfl
  | entry => rfl

theorem eq_of_file (ht : t.isDir = false) : t' = t := by
  induction h with
  | refl => rfl
  | trans _ _ ih ih' =>
    obtain rfl := ih ht
    exact ih' ht
  | perm => cases ht
  | entry => cases ht

theorem names_perm : (t.listing.map (·.1)).Perm (t'.listing.map (·.1)) := by
  induction h with
  | refl => exact .refl _
  | trans _ _ ih ih' => exact ih.trans ih'
  | perm h => exact h.map _
  | entry name front back => simp [listing]

/-- Each entry has one of the same name in the other listing. -/
theorem exists_mem {e : String × FileTree} (he : e ∈ t.listing) :
    ∃ u, (e.1, u) ∈ t'.listing ∧ e.2.Relisted u := by
  induction h generalizing e with
  | refl => exact ⟨e.2, he, .refl _⟩
  | trans _ _ ih ih' =>
    obtain ⟨u, hu, heu⟩ := ih he
    obtain ⟨v, hv, huv⟩ := ih' hu
    exact ⟨v, hv, heu.trans huv⟩
  | perm h => exact ⟨e.2, h.mem_iff.mp he, .refl _⟩
  | @entry t t' name front back h =>
    have he : e ∈ front ∨ e = (name, t) ∨ e ∈ back := by simpa [listing] using he
    rcases he with he | rfl | he
    · exact ⟨e.2, by simp [listing, he], .refl _⟩
    · exact ⟨t', by simp [listing], h⟩
    · exact ⟨e.2, by simp [listing, he], .refl _⟩

theorem proper (ht : t.Proper) : t'.Proper := by
  induction ht generalizing t' with
  | file bytes =>
    rw [h.eq_of_file rfl]
    exact .file bytes
  | @dir entries hnodup hnames _ ih =>
    cases t' with
    | file bytes => cases h.isDir_eq
    | dir entries' =>
      refine .dir (h.names_perm.nodup_iff.mp hnodup) (fun e he => ?_) fun e he => ?_
      · obtain ⟨u, hu, -⟩ := h.symm.exists_mem he
        exact hnames (e.1, u) hu
      · obtain ⟨u, hu, heu⟩ := h.symm.exists_mem he
        exact ih _ hu heu.symm

theorem hasFile {names : List String} (hf : t.HasFile names) : t'.HasFile names := by
  induction hf generalizing t' with
  | here bytes =>
    rw [h.eq_of_file rfl]
    exact .here bytes
  | inside hm _ ih =>
    cases t' with
    | file bytes => cases h.isDir_eq
    | dir entries' =>
      obtain ⟨u, hu, hru⟩ := h.exists_mem hm
      exact .inside hu (ih hru)

theorem exists_entry (ht : t.Proper) {name : String} {u : FileTree}
    (hu : t.entry? name = some u) : ∃ u', t'.entry? name = some u' ∧ u.Relisted u' := by
  obtain ⟨u', hu', hr⟩ := h.exists_mem (mem_listing_of_entry hu)
  exact ⟨u', (h.proper ht).entry?_eq_some_iff.mpr hu', hr⟩

end Relisted

end FileTree

/-! ## Where paths lead -/

namespace Place

open FileTree

/-- Further segments are followed from where the first ones lead. -/
theorem follow_append (ss : List String) (way : List FileTree) :
    (follow ss way = none ∧ ∀ rest, follow (ss ++ rest) way = none) ∨
      ∃ t way', follow ss way = some t ∧
        ∀ rest, follow (ss ++ rest) way = follow rest (t :: way') := by
  fun_induction follow ss way with
  | case1 ss => exact Or.inl ⟨rfl, fun rest => by cases ss ++ rest <;> rfl⟩
  | case2 t way => exact Or.inr ⟨t, way, rfl, fun rest => rfl⟩
  | case3 s ss t way hfile => exact Or.inl ⟨rfl, fun rest => by simp [follow, hfile]⟩
  | case4 s ss t way hdir hstay ih => simpa [follow, hdir, hstay] using ih
  | case5 ss t way hdir hstay ih => simpa [follow, hdir, hstay] using ih
  | case6 s ss t way hdir hstay hup inner hinner ih =>
    simpa [follow, hdir, hstay, hup, hinner] using ih
  | case7 s ss t way hdir hstay hup hnone =>
    exact Or.inl ⟨rfl, fun rest => by simp [follow, hdir, hstay, hup, hnone]⟩

/-- A name leads from a directory to the entry that has it. -/
theorem follow_snoc {name : String} (h : Path.IsName name) (ss : List String)
    (way : List FileTree) :
    follow (ss ++ [name]) way = (follow ss way).bind fun t => t.entry? name := by
  obtain ⟨hss, hrest⟩ | ⟨t, way', hss, hrest⟩ := follow_append ss way
  · rw [hss, hrest, Option.bind_none]
  · rw [hss, hrest, Option.bind_some]
    cases t with
    | file => rfl
    | dir entries =>
      cases hentry : FileTree.entry? name (dir entries) <;>
        simp [follow, isDir, h.ne_empty, h.ne_here, h.ne_up, hentry]

/-- Behind an empty last segment there has to be a directory. -/
theorem follow_snoc_empty (ss : List String) (way : List FileTree) :
    follow (ss ++ [""]) way = (follow ss way).filter (·.isDir) := by
  obtain ⟨hss, hrest⟩ | ⟨t, way', hss, hrest⟩ := follow_append ss way
  · rw [hss, hrest, Option.filter_none]
  · rw [hss, hrest]
    cases t <;> rfl

/-- With other listings the same segments lead to the same tree but for the listings. -/
theorem exists_follow {ss : List String} {way way' : List FileTree} (hall : ∀ t ∈ way, t.Proper)
    (hway : List.Forall₂ FileTree.Relisted way way') {u : FileTree} (h : follow ss way = some u) :
    u.Proper ∧ ∃ u', follow ss way' = some u' ∧ u.Relisted u' := by
  fun_induction follow ss way generalizing way' with
  | case1 => cases h
  | case2 t way =>
    obtain rfl := Option.some.inj h
    obtain ⟨t', rest, ht, -, rfl⟩ := List.forall₂_cons_left_iff.mp hway
    exact ⟨hall t List.mem_cons_self, t', rfl, ht⟩
  | case3 => cases h
  | case4 s ss t way hdir hstay ih =>
    obtain ⟨t', rest, ht, -, rfl⟩ := List.forall₂_cons_left_iff.mp hway
    rw [follow, ht.isDir_eq, if_neg hdir, if_pos hstay]
    exact ih hall hway h
  | case5 ss t way hdir hstay ih =>
    obtain ⟨t', rest, ht, hrest, rfl⟩ := List.forall₂_cons_left_iff.mp hway
    rw [follow, ht.isDir_eq, if_neg hdir, if_neg hstay, if_pos rfl]
    cases hrest with
    | nil => exact ih hall hway h
    | cons hfirst hrest =>
      exact ih (fun u hu => hall u (List.mem_cons_of_mem t hu)) (.cons hfirst hrest) h
  | case6 s ss t way hdir hstay hup inner hinner ih =>
    obtain ⟨t', rest, ht, hrest, rfl⟩ := List.forall₂_cons_left_iff.mp hway
    have hproper := hall t List.mem_cons_self
    obtain ⟨inner', hinner', hr⟩ := ht.exists_entry hproper hinner
    rw [follow, ht.isDir_eq, if_neg hdir, if_neg hstay, if_neg hup, hinner']
    refine ih (List.forall_mem_cons.mpr ⟨?_, hall⟩) (.cons hr hway) h
    exact hproper.of_mem (mem_listing_of_entry hinner)
  | case7 => cases h

theorem find?_eq {place : Place} {path : String} (h : path ≠ "") :
    place.find? path = follow ((if Path.isAbsolute path then [] else place.working) ++
      Path.segments path) [place.root] := by
  unfold find?
  rw [if_neg h]
  split <;> simp_all

/-- A name joined to a path leads to the entry of that name. -/
theorem find?_join {place : Place} {dir name : String} (h : Path.IsName name) {t : FileTree}
    (ht : place.find? dir = some t) : place.find? (Path.join dir name) = t.entry? name := by
  have hdir : dir ≠ "" := by
    rintro rfl
    cases ht
  obtain ⟨front, hjoin, hfront⟩ := Path.segments_join dir h
  rw [find?_eq hdir] at ht
  rw [find?_eq (Path.join_ne_empty dir h), Path.isAbsolute_join dir h, hjoin, ← List.append_assoc,
    follow_snoc h]
  rcases hfront with hfront | hfront
  · rw [hfront] at ht
    rw [ht, Option.bind_some]
  · rw [hfront, ← List.append_assoc, follow_snoc_empty, Option.filter_eq_some_iff] at ht
    rw [ht.1, Option.bind_some]

/-- The names that lead to a file below a directory can be joined to the path of the directory. -/
theorem exists_file {place : Place} {t : FileTree} {names : List String} (h : t.HasFile names)
    (hproper : t.Proper) {dir : String} (ht : place.find? dir = some t) :
    ∃ bytes, place.find? (names.foldl Path.join dir) = some (.file bytes) := by
  induction h generalizing dir with
  | here bytes => exact ⟨bytes, ht⟩
  | inside hm _ ih =>
    refine ih (hproper.of_mem hm) ?_
    rw [find?_join (hproper.isName hm) ht, hproper.entry?_eq_some_iff]
    exact hm

/-- The same place with its directories listed in another order. -/
structure Relisted (place place' : Place) : Prop where
  root : place.root.Relisted place'.root
  working : place'.working = place.working

theorem Relisted.symm {place place' : Place} (h : place.Relisted place') :
    place'.Relisted place :=
  ⟨h.root.symm, h.working.symm⟩

theorem Relisted.exists_find? {place place' : Place} (h : place.Relisted place')
    (hp : place.root.Proper) {path : String} {t : FileTree} (ht : place.find? path = some t) :
    t.Proper ∧ ∃ t', place'.find? path = some t' ∧ t.Relisted t' := by
  have hpath : path ≠ "" := by
    rintro rfl
    cases ht
  rw [find?_eq hpath] at ht ⊢
  rw [h.working]
  exact exists_follow (by simpa using hp) (.cons h.root .nil) ht

theorem proper_of_find? {place : Place} (hp : place.root.Proper) {path : String} {t : FileTree}
    (ht : place.find? path = some t) : t.Proper :=
  (Relisted.exists_find? ⟨.refl _, rfl⟩ hp ht).1

end Place

end Makespan
