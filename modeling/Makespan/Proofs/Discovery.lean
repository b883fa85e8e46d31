import Mathlib.Data.List.Sort
import Makespan.Discovery
import Makespan.Proofs.Files.Tree
import Makespan.Proofs.Graph.WellFormed

/-! What discovery finds: each file that one of the paths stands for, once, in order of the paths'
components. So the order of the paths and the listings of the directories do not matter, except for
how a path is spelled that has several spellings. -/

namespace Makespan.Discovery

/-- A path that leads to a file stands for itself. A path that leads to a directory stands for all
files at any depth below whose names are something before `.toml`. -/
inductive StandsFor (place : Place) (path : String) : String → Prop
  | itself {bytes : ByteArray} : place.find? path = some (.file bytes) → StandsFor place path path
  | below {t : FileTree} {front : List String} {stem : String} : place.find? path = some t →
      t.HasFile (front ++ [stem ++ ".toml"]) → stem ≠ "" →
      StandsFor place path ((front ++ [stem ++ ".toml"]).foldl Path.join path)

theorem isWorkflowName_join (dir : String) {name : String} (h : Path.IsName name) :
    isWorkflowName (Path.join dir name) = true ↔ ∃ stem, stem ≠ "" ∧ name = stem ++ ".toml" := by
  have hext : Path.extension? (Path.join dir name) = (Path.splitName name).2 := by
    rw [Path.extension?, Path.fileName?_join dir h, Option.bind_some]
  rw [isWorkflowName, decide_eq_true_iff, hext, Path.splitName_eq_some_iff (by decide)]
  simp only [String.append_assoc]
  rfl

/-! ## Below a directory -/

theorem mem_below {path : String} {entries : List (String × FileTree)} {file : String} :
    file ∈ below path entries ↔ ∃ names, (FileTree.dir entries).HasFile names ∧
      file = names.foldl Path.join path ∧ isWorkflowName file = true := by
  fun_induction below path entries with
  | case1 path => simp [FileTree.hasFile_dir_iff]
  | case2 path name entries rest ih ih' =>
    simp only [List.mem_append, ih, ih', FileTree.hasFile_cons_iff, or_and_right, exists_or]
    refine or_congr_left ?_
    constructor
    · rintro ⟨names, hnames, hfile, hworkflow⟩
      exact ⟨name :: names, ⟨names, rfl, hnames⟩, hfile, hworkflow⟩
    · rintro ⟨_, ⟨names, rfl, hnames⟩, hfile, hworkflow⟩
      exact ⟨names, hnames, hfile, hworkflow⟩
  | case3 path name bytes rest file' ih =>
    simp only [List.mem_append, ih, FileTree.hasFile_cons_iff, FileTree.hasFile_file_iff,
      or_and_right, exists_or]
    refine or_congr_left ?_
    constructor
    · intro hmem
      split at hmem
      · rename_i hworkflow
        obtain rfl := List.mem_singleton.mp hmem
        exact ⟨[name], ⟨[], rfl, rfl⟩, rfl, hworkflow⟩
      · cases hmem
    · rintro ⟨_, ⟨names, rfl, rfl⟩, rfl, hworkflow⟩
      exact List.mem_ite_nil_right.mpr ⟨hworkflow, List.mem_singleton_self _⟩

theorem mem_below_iff {place : Place} {path : String} {entries : List (String × FileTree)}
    (hpath : place.find? path = some (.dir entries)) (hp : (FileTree.dir entries).Proper)
    {file : String} : file ∈ below path entries ↔ StandsFor place path file := by
  rw [mem_below]
  constructor
  · rintro ⟨names, hnames, rfl, hworkflow⟩
    rcases List.eq_nil_or_concat names with rfl | ⟨front, name, rfl⟩
    · cases hnames
    · have hname := hnames.isName hp name (by simp)
      rw [List.concat_eq_append, List.foldl_concat] at hworkflow
      obtain ⟨stem, hstem, rfl⟩ := (isWorkflowName_join _ hname).mp hworkflow
      rw [List.concat_eq_append] at hnames ⊢
      exact .below hpath hnames hstem
  · intro h
    cases h with
    | itself hfile => cases hpath.symm.trans hfile
    | @below t front stem ht hnames hstem =>
      obtain rfl := Option.some.inj (hpath.symm.trans ht)
      refine ⟨_, hnames, rfl, ?_⟩
      rw [List.foldl_concat]
      exact (isWorkflowName_join _ (hnames.isName hp _ (by simp))).mpr ⟨stem, hstem, rfl⟩

/-! ## Lists of paths -/

section Expand

variable {place : Place}

theorem expand_eq_error_iff {path : String} {e : MissingPath} :
    expand place path = .error e ↔ place.find? path = none ∧ e.path = path := by
  unfold expand
  cases place.find? path with
  | none => cases e; simp [eq_comm]
  | some t => cases t <;> simp

theorem mem_of_expand (hp : place.root.Proper) {path : String} {files : List String}
    (h : expand place path = .ok files) {file : String} :
    file ∈ files ↔ StandsFor place path file := by
  unfold expand at h
  cases ht : place.find? path with
  | none => rw [ht] at h; cases h
  | some t =>
    rw [ht] at h
    cases t with
    | file bytes =>
      obtain rfl := Except.ok.inj h
      rw [List.mem_singleton]
      constructor
      · rintro rfl
        exact .itself ht
      · intro hstands
        cases hstands with
        | itself => rfl
        | below ht' hnames =>
          obtain rfl := Option.some.inj (ht.symm.trans ht')
          simp [FileTree.hasFile_file_iff] at hnames
    | dir entries =>
      obtain rfl := Except.ok.inj h
      exact mem_below_iff ht (Place.proper_of_find? hp ht)

/-- The first path that leads nowhere is the one that is named. -/
theorem mapM_expand_eq_error_iff {paths : List String} {e : MissingPath} :
    paths.mapM (expand place) = .error e ↔
      paths.find? (fun p => (place.find? p).isNone) = some e.path := by
  induction paths with
  | nil => simp [pure, Except.pure]
  | cons path paths ih =>
    rw [List.mapM_cons, bind_eq_error_iff, expand_eq_error_iff]
    cases ht : place.find? path with
    | none =>
      rw [List.find?_cons_of_pos (by simp [ht])]
      have hexpand : ∀ files, expand place path ≠ .ok files := by
        intro files h
        rw [expand, ht] at h
        cases h
      simp [hexpand, eq_comm]
    | some t =>
      rw [List.find?_cons_of_neg (by simp [ht]), ← ih]
      obtain ⟨files, hfiles⟩ : ∃ files, expand place path = .ok files := by
        rw [expand, ht]
        cases t with
        | file bytes => exact ⟨_, rfl⟩
        | dir entries => exact ⟨_, rfl⟩
      simp [hfiles, bind_eq_error_iff, pure, Except.pure]

/-- The files of a list of paths. -/
theorem mem_flatten_of_mapM (hp : place.root.Proper) {paths : List String}
    {files : List (List String)} (h : paths.mapM (expand place) = .ok files) {file : String} :
    file ∈ files.flatten ↔ ∃ path ∈ paths, StandsFor place path file := by
  induction paths generalizing files with
  | nil =>
    obtain rfl := pure_eq_ok_iff.mp h
    simp
  | cons path paths ih =>
    rw [List.mapM_cons, bind_eq_ok_iff] at h
    obtain ⟨first, hfirst, h⟩ := h
    obtain ⟨rest, hrest, h⟩ := bind_eq_ok_iff.mp h
    obtain rfl := pure_eq_ok_iff.mp h
    rw [List.flatten_cons, List.mem_append, mem_of_expand hp hfirst, ih hrest,
      List.exists_mem_cons_iff]

end Expand

/-! ## Files in order -/

theorem mem_of_mem_distinct {l : List String} {p : String} (h : p ∈ distinct l) : p ∈ l := by
  fun_induction distinct l with
  | case1 q q' rest _ ih =>
    rcases List.mem_cons.mp (ih h) with rfl | hm
    · exact List.mem_cons_self
    · exact List.mem_cons_of_mem q (List.mem_cons_of_mem q' hm)
  | case2 q q' rest _ ih =>
    rcases List.mem_cons.mp h with rfl | hm
    · exact List.mem_cons_self
    · exact List.mem_cons_of_mem q (ih hm)
  | case3 => exact h

/-- A path that is left out is the same as one that stays. -/
theorem exists_mem_distinct {l : List String} {p : String} (h : p ∈ l) :
    ∃ q ∈ distinct l, Path.components q = Path.components p := by
  fun_induction distinct l generalizing p with
  | case1 q q' rest hsame ih =>
    rcases List.mem_cons.mp h with rfl | hm
    · exact ih List.mem_cons_self
    · rcases List.mem_cons.mp hm with rfl | hm
      · rw [← Path.same_iff.mp hsame]
        exact ih List.mem_cons_self
      · exact ih (List.mem_cons_of_mem q hm)
  | case2 q q' rest _ ih =>
    rcases List.mem_cons.mp h with rfl | hm
    · exact ⟨p, List.mem_cons_self, rfl⟩
    · obtain ⟨r, hr, hrp⟩ := ih hm
      exact ⟨r, List.mem_cons_of_mem q hr, hrp⟩
  | case3 => exact ⟨p, h, rfl⟩

/-- In a list in order of components no two paths that stay are the same. -/
theorem distinct_pairwise {l : List String}
    (h : l.Pairwise fun p q => Path.components p ≤ Path.components q) :
    (distinct l).Pairwise fun p q => Path.components p < Path.components q := by
  fun_induction distinct l with
  | case1 p q rest _ ih => exact ih (h.sublist (by simp))
  | case2 p q rest hsame ih =>
    obtain ⟨hp, hrest⟩ := List.pairwise_cons.mp h
    have hpq : Path.components p < Path.components q :=
      lt_of_le_of_ne (hp q List.mem_cons_self) fun he => hsame (Path.same_iff.mpr he)
    refine List.pairwise_cons.mpr ⟨fun r hr => ?_, ih hrest⟩
    rcases List.mem_cons.mp (mem_of_mem_distinct hr) with rfl | hr
    · exact hpq
    · exact hpq.trans_le ((List.pairwise_cons.mp hrest).1 r hr)
  | case3 l hshort =>
    match l with
    | [] => exact .nil
    | [p] => exact List.pairwise_singleton _ p
    | p :: q :: rest => exact absurd rfl (hshort p q rest)

theorem sort_pairwise (l : List String) :
    (l.mergeSort Path.le).Pairwise fun p q => Path.components p ≤ Path.components q := by
  have h : (l.mergeSort Path.le).Pairwise fun p q => Path.le p q = true := by
    refine List.pairwise_mergeSort (fun p q r hpq hqr => ?_) (fun p q => ?_) l
    · exact Path.le_iff.mpr ((Path.le_iff.mp hpq).trans (Path.le_iff.mp hqr))
    · rw [Bool.or_eq_true, Path.le_iff, Path.le_iff]
      exact le_total _ _
  exact h.imp Path.le_iff.mp

/-! ## Discovery -/

section Find

variable {place : Place} {paths : List String}

theorem find_eq_error_iff {e : MissingPath} : find place paths = .error e ↔
    paths.find? (fun p => (place.find? p).isNone) = some e.path := by
  rw [find, bind_eq_error_iff, mapM_expand_eq_error_iff]
  simp [pure, Except.pure]

theorem find_eq_ok_iff {found : List String} : find place paths = .ok found ↔
    ∃ files, paths.mapM (expand place) = .ok files ∧
      distinct (files.flatten.mergeSort Path.le) = found := by
  simp only [find, bind_eq_ok_iff, pure_eq_ok_iff]

/-- Discovery succeeds where every path leads somewhere. -/
theorem exists_found (h : ∀ p ∈ paths, (place.find? p).isSome = true) :
    ∃ found, find place paths = .ok found := by
  cases hfind : find place paths with
  | ok found => exact ⟨found, rfl⟩
  | error e =>
    have hfirst := find_eq_error_iff.mp hfind
    have hmissing := List.find?_some hfirst
    have hsome := h e.path (List.mem_of_find?_eq_some hfirst)
    rw [Option.isNone_iff_eq_none] at hmissing
    rw [hmissing] at hsome
    cases hsome

theorem sortedLT_of_find {found : List String} (h : find place paths = .ok found) :
    (found.map Path.components).SortedLT := by
  obtain ⟨files, -, rfl⟩ := find_eq_ok_iff.mp h
  rw [List.sortedLT_iff_pairwise, List.pairwise_map]
  exact distinct_pairwise (sort_pairwise _)

theorem standsFor_of_find (hp : place.root.Proper) {found : List String}
    (h : find place paths = .ok found) {file : String} (hfile : file ∈ found) :
    ∃ path ∈ paths, StandsFor place path file := by
  obtain ⟨files, hfiles, rfl⟩ := find_eq_ok_iff.mp h
  rw [← mem_flatten_of_mapM hp hfiles]
  exact List.mem_mergeSort.mp (mem_of_mem_distinct hfile)

theorem exists_of_standsFor (hp : place.root.Proper) {found : List String}
    (h : find place paths = .ok found) {path file : String} (hpath : path ∈ paths)
    (hfile : StandsFor place path file) :
    ∃ p ∈ found, Path.components p = Path.components file := by
  obtain ⟨files, hfiles, rfl⟩ := find_eq_ok_iff.mp h
  refine exists_mem_distinct (List.mem_mergeSort.mpr ?_)
  exact (mem_flatten_of_mapM hp hfiles).mpr ⟨path, hpath, hfile⟩

theorem mem_components_iff (hp : place.root.Proper) {found : List String}
    (h : find place paths = .ok found) {cs : List Component} :
    cs ∈ found.map Path.components ↔
      ∃ path ∈ paths, ∃ file, StandsFor place path file ∧ Path.components file = cs := by
  rw [List.mem_map]
  constructor
  · rintro ⟨file, hfile, rfl⟩
    obtain ⟨path, hpath, hstands⟩ := standsFor_of_find hp h hfile
    exact ⟨path, hpath, file, hstands, rfl⟩
  · rintro ⟨path, hpath, file, hstands, rfl⟩
    exact exists_of_standsFor hp h hpath hstands

end Find

/-- Files that a path stands for are files. -/
theorem StandsFor.isFile {place : Place} (hp : place.root.Proper) {path file : String}
    (h : StandsFor place path file) : place.isFile file = true := by
  obtain ⟨bytes, hfile⟩ : ∃ bytes, place.find? file = some (.file bytes) := by
    cases h with
    | itself h => exact ⟨_, h⟩
    | below ht hnames => exact Place.exists_file hnames (Place.proper_of_find? hp ht) ht
  rw [Place.isFile, hfile]
  rfl

/-- A path stands for the same files however directories are listed. -/
theorem StandsFor.relisted {place place' : Place} (hp : place.root.Proper)
    (h : place.Relisted place') {path file : String} (hfile : StandsFor place path file) :
    StandsFor place' path file := by
  cases hfile with
  | itself hbytes =>
    obtain ⟨-, t, ht, hr⟩ := h.exists_find? hp hbytes
    obtain rfl := hr.eq_of_file rfl
    exact .itself ht
  | below ht hnames hstem =>
    obtain ⟨-, t', ht', hr⟩ := h.exists_find? hp ht
    exact .below ht' (hr.hasFile hnames) hstem

section Relisted

variable {place place' : Place} (hp : place.root.Proper) (h : place.Relisted place')
  {paths paths' : List String} (hpaths : ∀ p, p ∈ paths' ↔ p ∈ paths)
include hp h hpaths

theorem isSome_relisted (hall : ∀ p ∈ paths, (place.find? p).isSome = true) :
    ∀ p ∈ paths', (place'.find? p).isSome = true := by
  intro p hpm
  obtain ⟨t, ht⟩ := Option.isSome_iff_exists.mp (hall p ((hpaths p).mp hpm))
  obtain ⟨-, t', ht', -⟩ := h.exists_find? hp ht
  rw [ht']
  rfl

/-- Both lists are strictly ascending and have the same members. -/
theorem components_relisted {found found' : List String} (hfound : find place paths = .ok found)
    (hfound' : find place' paths' = .ok found') :
    found.map Path.components = found'.map Path.components := by
  have hp' : place'.root.Proper := h.root.proper hp
  refine (sortedLT_of_find hfound).eq_of_mem_iff (sortedLT_of_find hfound') fun cs => ?_
  rw [mem_components_iff hp hfound, mem_components_iff hp' hfound']
  constructor
  · rintro ⟨path, hpath, file, hfile, hcs⟩
    exact ⟨path, (hpaths path).mpr hpath, file, hfile.relisted hp h, hcs⟩
  · rintro ⟨path, hpath, file, hfile, hcs⟩
    exact ⟨path, (hpaths path).mp hpath, file, hfile.relisted hp' h.symm, hcs⟩

end Relisted

/-- Discovery fails at the first path that leads nowhere and names it in its message. If all paths
lead somewhere then it finds the files that they stand for and no others, in strictly ascending
order of their components. Other listings, and the same paths in another order or repeatedly, give
the same list up to the spelling of paths. -/
theorem each_file_found_once (place : Place) (hp : place.root.Proper) (paths : List String) :
    (∀ e, (find place paths = .error e ↔
        paths.find? (fun p => (place.find? p).isNone) = some e.path) ∧
      e.message = "Configuration error: workflow path '" ++ e.path ++ "' does not exist") ∧
    ((∀ p ∈ paths, (place.find? p).isSome = true) → ∃ found, find place paths = .ok found ∧
      (found.map Path.components).SortedLT ∧
      (∀ file ∈ found, place.isFile file = true ∧ ∃ path ∈ paths, StandsFor place path file) ∧
      (∀ path ∈ paths, ∀ file, StandsFor place path file →
        ∃ p ∈ found, Path.same p file = true) ∧
      ∀ place' paths', place.Relisted place' → (∀ p, p ∈ paths' ↔ p ∈ paths) →
        ∃ found', find place' paths' = .ok found' ∧
          List.Forall₂ (fun p q => Path.same p q = true) found found') := by
  refine ⟨fun e => ⟨find_eq_error_iff, rfl⟩, fun hall => ?_⟩
  obtain ⟨found, hfound⟩ := exists_found hall
  refine ⟨found, hfound, sortedLT_of_find hfound, fun file hfile => ?_,
    fun path hpath file hfile => ?_, fun place' paths' hplace hpaths => ?_⟩
  · obtain ⟨path, hpath, hstands⟩ := standsFor_of_find hp hfound hfile
    exact ⟨hstands.isFile hp, path, hpath, hstands⟩
  · obtain ⟨p, hpf, hsame⟩ := exists_of_standsFor hp hfound hpath hfile
    exact ⟨p, hpf, Path.same_iff.mpr hsame⟩
  · obtain ⟨found', hfound'⟩ := exists_found (isSome_relisted hp hplace hpaths hall)
    have heq := components_relisted hp hplace hpaths hfound hfound'
    refine ⟨found', hfound', ?_⟩
    rw [← List.forall₂_eq_eq_eq, List.forall₂_map_left_iff, List.forall₂_map_right_iff] at heq
    exact heq.imp fun p q hpq => Path.same_iff.mpr hpq

/-- A directory whose entries are listed out of order, with a file that has another extension and
one that has a name but no extension. -/
def shelf : Place where
  root := .dir
    [("flows", .dir
      [("a-b", .dir [("x.toml", .file .empty)]),
        ("notes.txt", .file .empty),
        ("a", .dir [(".toml", .file .empty), ("x.toml", .file .empty)])])]
  working := []

/-- The same directory in another listing. -/
def shelfRelisted : Place where
  root := .dir
    [("flows", .dir
      [("a", .dir [(".toml", .file .empty), ("x.toml", .file .empty)]),
        ("a-b", .dir [("x.toml", .file .empty)]),
        ("notes.txt", .file .empty)])]
  working := []

theorem shelf_proper : shelf.root.Proper := by
  have hfile := FileTree.Proper.file .empty
  have hab : (FileTree.dir [("x.toml", .file .empty)]).Proper :=
    .dir (by decide) (by decide) (by simpa using hfile)
  have ha : (FileTree.dir [(".toml", .file .empty), ("x.toml", .file .empty)]).Proper :=
    .dir (by decide) (by decide) (by simpa using hfile)
  refine .dir (by decide) (by decide) (List.forall_mem_singleton.mpr ?_)
  exact .dir (by decide) (by decide) (by simp [hab, hfile, ha])

theorem shelf_relisted : shelf.Relisted shelfRelisted :=
  ⟨.entry "flows" [] [] (.perm (List.perm_append_singleton _ [_, _])), rfl⟩

/-- The directory is given together with two of its files, and in the other listing once more. -/
theorem shelf_found_once : shelf.root.Proper ∧ ∃ found found',
    find shelf ["flows", "flows/notes.txt", "flows//a/x.toml"] = .ok found ∧
    find shelfRelisted ["flows//a/x.toml", "flows", "flows/notes.txt", "flows"] = .ok found' ∧
    List.Forall₂ (fun p q => Path.same p q = true) found found' ∧
    (found.map Path.components).SortedLT ∧
    ∃ p ∈ found, Path.same p "flows/a-b/x.toml" = true := by
  obtain ⟨found, hfound, hsorted, -, hall, hrelisted⟩ :=
    (each_file_found_once shelf shelf_proper ["flows", "flows/notes.txt", "flows//a/x.toml"]).2
      (by decide +kernel)
  obtain ⟨found', hfound', hsame⟩ := hrelisted shelfRelisted
    ["flows//a/x.toml", "flows", "flows/notes.txt", "flows"] shelf_relisted (by simp; tauto)
  have hbelow : (FileTree.dir [("a-b", .dir [("x.toml", .file .empty)]),
      ("notes.txt", .file .empty),
      ("a", .dir [(".toml", .file .empty), ("x.toml", .file .empty)])]).HasFile
      (["a-b"] ++ ["x" ++ ".toml"]) :=
    .inside List.mem_cons_self (.inside List.mem_cons_self (.here .empty))
  have hfile : StandsFor shelf "flows" "flows/a-b/x.toml" := .below rfl hbelow (by decide)
  exact ⟨shelf_proper, found, found', hfound, hfound', hsame, hsorted,
    hall "flows" List.mem_cons_self _ hfile⟩

end Makespan.Discovery
