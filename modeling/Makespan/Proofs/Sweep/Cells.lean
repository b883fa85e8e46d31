import Makespan.Host.OfPlace
import Makespan.Proofs.Broker.Breakdown
import Makespan.Proofs.Sweep.Labels

/-! What stands in the table of a sweep. A handle leads to the run that it was given for, in
whatever order the runs finish; so each cell shows what its own file comes to under its own
policy. -/

namespace Makespan

theorem mapM_eq_some_iff {α β : Type} {f : α → Option β} {l : List α} {l' : List β} :
    l.mapM f = some l' ↔ List.Forall₂ (fun a b => f a = some b) l l' := by
  induction l generalizing l' with
  | nil => cases l' <;> simp
  | cons a l ih =>
    rw [List.mapM_cons]
    cases ha : f a with
    | none => cases l' <;> simp [ha]
    | some b =>
      cases hl : l.mapM f with
      | none => cases l' <;> simp [ha, ← ih, hl]
      | some bs => cases l' <;> simp [ha, ← ih, hl]

theorem mapM_congr_of_forall₂ {α β γ : Type} {f : α → Option γ} {g : β → Option γ} {l : List α}
    {l' : List β} (h : List.Forall₂ (fun a b => f a = g b) l l') : l.mapM f = l'.mapM g := by
  induction h with
  | nil => rfl
  | cons hab _ ih => rw [List.mapM_cons, List.mapM_cons, hab, ih]

theorem exists_forall₂ {α β : Type} {R : α → β → Prop} {l : List α} (h : ∀ a ∈ l, ∃ b, R a b) :
    ∃ l', List.Forall₂ R l l' := by
  induction l with
  | nil => exact ⟨[], .nil⟩
  | cons a l ih =>
    obtain ⟨hb, hl⟩ := List.forall_mem_cons.mp h
    obtain ⟨b, hb⟩ := hb
    obtain ⟨l', hl⟩ := ih hl
    exact ⟨b :: l', .cons hb hl⟩

theorem exists_mem_of_forall₂ {α β : Type} {R : α → β → Prop} {l : List α} {l' : List β}
    (h : List.Forall₂ R l l') {a : α} (ha : a ∈ l) : ∃ b ∈ l', R a b := by
  obtain ⟨i, hi, rfl⟩ := List.mem_iff_getElem.mp ha
  have hi' : i < l'.length := h.length_eq ▸ hi
  exact ⟨l'[i], List.getElem_mem hi', h.get hi hi'⟩

/-- What holds of all elements from some number on holds of them together. -/
theorem exists_common_bound {α : Type} {P : Nat → α → Prop}
    (hmono : ∀ m n a, m ≤ n → P m a → P n a) {l : List α} (h : ∀ a ∈ l, ∃ n, P n a) :
    ∃ n, ∀ a ∈ l, P n a := by
  induction l with
  | nil => exact ⟨0, fun a ha => absurd ha List.not_mem_nil⟩
  | cons a l ih =>
    obtain ⟨⟨m, hm⟩, hl⟩ := List.forall_mem_cons.mp h
    obtain ⟨n, hn⟩ := ih hl
    refine ⟨max m n, List.forall_mem_cons.mpr ⟨hmono _ _ a (le_max_left m n) hm, fun b hb => ?_⟩⟩
    exact hmono _ _ b (le_max_right m n) (hn b hb)

namespace Sweep

/-! ## One file under one policy -/

/-- Provisioners that answer every request. How a breakdown is told depends on when its run was
handed out. -/
def Provisioners.Calm (provisioners : Provisioners) : Prop :=
  ∀ w policy worker, provisioners w policy worker ≠ .crashed

theorem allCreated_calm : allCreated.Calm := nofun

section Outcome

variable (host : Host) (settings : Settings) (provisioners : Provisioners) (path : String)
  (policy : Policy)

/-- What a file comes to under a policy, whatever else is in the sweep: its text is read, taken for
a description, and checked, and then the workflow is simulated. -/
def Outcome (cell : Cell) : Prop :=
  match host.place.readText? path with
  | none => cell = .failed ("IO error: " ++ host.unreadable path)
  | some text =>
    match host.workflow text with
    | .error cause => cell = .failed ("TOML parsing error: " ++ cause)
    | .ok description =>
      match (description.named path).validate with
      | .error fault => cell = .failed fault.message
      | .ok w =>
        (∃ e, SimulatesTo w policy settings (provisioners w policy) (.error e) ∧
          cell = .failed e.message) ∨
        ∃ report, SimulatesTo w policy settings (provisioners w policy) (.ok report) ∧
          cell = .completed report.makespan report.executed

/-- The cell for a run that did not break down. -/
def shown : Except Error Report → Cell
  | .ok report => .completed report.makespan report.executed
  | .error e => .failed e.message

/-- What a file comes to within so many events. -/
def OutcomeWithin (events : Nat) (cell : Cell) : Prop :=
  match Workflow.load host path with
  | .ok w =>
    ∃ result, (Run.mk w policy).result? events settings provisioners = some result ∧
      shown result = cell
  | .error e => .failed e.message = cell

variable {host settings provisioners path policy}

theorem ofResult_eq_shown {result : Except Error Report} (h : result ≠ .error .provisioningCrashed)
    (handle : Handle) : Cell.ofResult host handle result = shown result := by
  cases result with
  | ok report => rfl
  | error e => cases e <;> first | rfl | exact absurd rfl h

/-- The stages of loading are those of the outcome. -/
theorem outcome_eq (cell : Cell) : Outcome host settings provisioners path policy cell ↔
    match Workflow.load host path with
    | .ok w => ∃ result, SimulatesTo w policy settings (provisioners w policy) result ∧
        shown result = cell
    | .error e => .failed e.message = cell := by
  unfold Outcome Workflow.load Host.readDocument
  cases host.place.readText? path with
  | none => exact eq_comm
  | some text =>
    cases hread : host.workflow text with
    | error cause => simp only [hread]; exact eq_comm
    | ok description =>
      simp only [hread]
      show _ ↔ match (description.named path).validate.mapError LoadError.workflow with
        | .ok w => _
        | .error e => _
      cases (description.named path).validate with
      | error fault => exact eq_comm
      | ok w =>
        constructor
        · rintro (⟨e, hsim, rfl⟩ | ⟨report, hsim, rfl⟩)
          · exact ⟨.error e, hsim, rfl⟩
          · exact ⟨.ok report, hsim, rfl⟩
        · rintro ⟨e | report, hsim, rfl⟩
          · exact Or.inl ⟨e, hsim, rfl⟩
          · exact Or.inr ⟨report, hsim, rfl⟩

theorem outcome_iff {cell : Cell} : Outcome host settings provisioners path policy cell ↔
    ∃ events, OutcomeWithin host settings provisioners path policy events cell := by
  rw [outcome_eq]
  unfold OutcomeWithin
  cases Workflow.load host path with
  | error e => exact ⟨fun h => ⟨0, h⟩, fun ⟨_, h⟩ => h⟩
  | ok w =>
    constructor
    · rintro ⟨result, ⟨events, h⟩, hcell⟩
      exact ⟨events, result, h, hcell⟩
    · rintro ⟨events, result, h, hcell⟩
      exact ⟨result, ⟨events, h⟩, hcell⟩

theorem OutcomeWithin.mono {m n : Nat} (hmn : m ≤ n) {cell : Cell}
    (h : OutcomeWithin host settings provisioners path policy m cell) :
    OutcomeWithin host settings provisioners path policy n cell := by
  unfold OutcomeWithin at h ⊢
  cases hload : Workflow.load host path with
  | error e => rwa [hload] at h
  | ok w =>
    rw [hload] at h
    obtain ⟨result, hresult, hcell⟩ := h
    exact ⟨result, simulate?_mono hresult hmn, hcell⟩

theorem Outcome.unique {cell cell' : Cell}
    (h : Outcome host settings provisioners path policy cell)
    (h' : Outcome host settings provisioners path policy cell') : cell = cell' := by
  rw [outcome_eq] at h h'
  cases hload : Workflow.load host path with
  | error e =>
    rw [hload] at h h'
    exact h.symm.trans h'
  | ok w =>
    rw [hload] at h h'
    obtain ⟨result, hresult, rfl⟩ := h
    obtain ⟨result', hresult', rfl⟩ := h'
    rw [hresult.unique hresult']

theorem valid_of_load {w : Workflow} (h : Workflow.load host path = .ok w) : w.Valid := by
  obtain ⟨description, -, h⟩ := bind_eq_ok_iff.mp h
  cases hv : (description.named path).validate with
  | error fault => rw [hv] at h; cases h
  | ok w' =>
    rw [hv] at h
    obtain rfl := Except.ok.inj h
    exact Workflow.validate_sound hv

end Outcome

/-! ## Handing out and collecting -/

section Collect

variable {host : Host} {settings : Settings} {provisioners : Provisioners} {events : Nat}
  {runs : List Run} {path : String} {row : PendingRow} {finished : Finished}
  {order : List Handle}

/-- The runs of a file. -/
def runsOf (host : Host) (settings : Settings) (path : String) : List Run :=
  match Workflow.load host path with
  | .ok w => settings.policies.map (Run.mk w)
  | .error _ => []

theorem runs_spawn (runs : List Run) (path : String) :
    (spawn host settings runs path).2 = runs ++ runsOf host settings path := by
  unfold spawn runsOf
  cases Workflow.load host path with
  | error e => exact (List.append_nil runs).symm
  | ok w => rfl

theorem runs_spawnAll (runs : List Run) (paths : List String) :
    (spawnAll host settings runs paths).2 = runs ++ paths.flatMap (runsOf host settings) := by
  induction paths generalizing runs with
  | nil => exact (List.append_nil runs).symm
  | cons path rest ih =>
    show (spawnAll host settings (spawn host settings runs path).2 rest).2 = _
    rw [ih, runs_spawn, List.flatMap_cons, List.append_assoc]

/-- A pending row that awaits the runs of a file, or knows that it could not be loaded. -/
def PendingRow.Awaits (host : Host) (settings : Settings) (runs : List Run) (path : String)
    (row : PendingRow) : Prop :=
  match Workflow.load host path with
  | .ok w => ∃ handles, row = .running handles ∧
      List.Forall₂ (fun handle policy => runs[handle]? = some ⟨w, policy⟩) handles settings.policies
  | .error e => row = .loadFailed e.message

/-- Runs that are handed out later leave the handles as they are. -/
theorem PendingRow.Awaits.append (h : row.Awaits host settings runs path) (more : List Run) :
    row.Awaits host settings (runs ++ more) path := by
  unfold Awaits at h ⊢
  cases hload : Workflow.load host path with
  | error e => rwa [hload] at h
  | ok w =>
    rw [hload] at h
    obtain ⟨handles, hrow, hruns⟩ := h
    refine ⟨handles, hrow, hruns.imp fun handle policy hrun => ?_⟩
    rw [List.getElem?_append_left (List.getElem?_eq_some_iff.mp hrun).1, hrun]

theorem awaits_spawn (runs : List Run) (path : String) :
    (spawn host settings runs path).1.Awaits host settings
      (runs ++ runsOf host settings path) path := by
  unfold PendingRow.Awaits spawn runsOf
  cases Workflow.load host path with
  | error e => rfl
  | ok w =>
    refine ⟨_, rfl, List.forall₂_iff_get.mpr ⟨by simp, fun i hi hi' => ?_⟩⟩
    simp [hi']

theorem awaits_spawnAll (runs : List Run) (paths : List String) :
    List.Forall₂ (fun path row =>
        row.Awaits host settings (spawnAll host settings runs paths).2 path)
      paths (spawnAll host settings runs paths).1 := by
  induction paths generalizing runs with
  | nil => exact .nil
  | cons path rest ih =>
    show List.Forall₂ (fun p row => PendingRow.Awaits host settings
        (spawnAll host settings (spawn host settings runs path).2 rest).2 p row)
      (path :: rest) ((spawn host settings runs path).1 ::
        (spawnAll host settings (spawn host settings runs path).2 rest).1)
    refine .cons ?_ (ih _)
    rw [runs_spawnAll, runs_spawn]
    exact (awaits_spawn runs path).append _

/-- What is awaited by a handle is what the run of that handle came to. -/
theorem lookup_of_finish (h : finish? events settings provisioners runs order = some finished)
    {handle : Handle} (hh : handle ∈ order) :
    finished.lookup handle = runs[handle]?.bind (·.result? events settings provisioners) := by
  have hall := mapM_eq_some_iff.mp h
  clear h
  induction hall with
  | nil => cases hh
  | @cons k entry rest finished hentry _ ih =>
    obtain ⟨run, hrun, hentry⟩ := Option.bind_eq_some_iff.mp hentry
    obtain ⟨result, hresult, hentry⟩ := Option.bind_eq_some_iff.mp hentry
    obtain rfl : (k, result) = entry := Option.some.inj hentry
    by_cases hk : handle = k
    · subst hk
      rw [List.lookup_cons_self, hrun, Option.bind_some, hresult]
    · rw [List.lookup_cons, beq_false_of_ne hk]
      exact ih ((List.mem_cons.mp hh).resolve_left hk)

/-- All runs finish if each of them does. -/
theorem exists_finish (h : ∀ handle ∈ order, ∃ run, runs[handle]? = some run ∧
      ∃ result, run.result? events settings provisioners = some result) :
    ∃ finished, finish? events settings provisioners runs order = some finished := by
  have hall : ∀ handle ∈ order, ∃ entry : Handle × Except Error Report,
      (do let run ← runs[handle]?
          return (handle, ← run.result? events settings provisioners)) = some entry := by
    intro handle hh
    obtain ⟨run, hrun, result, hresult⟩ := h handle hh
    exact ⟨(handle, result), by simp [hrun, hresult]⟩
  obtain ⟨finished, hf⟩ := exists_forall₂ hall
  exact ⟨finished, mapM_eq_some_iff.mpr hf⟩

/-- A pending row is collected into the cells of its file. -/
theorem PendingRow.Awaits.collect_iff (h : row.Awaits host settings runs path)
    (hcalm : provisioners.Calm)
    (hf : ∀ handle < runs.length, finished.lookup handle =
      runs[handle]?.bind (·.result? events settings provisioners)) {cells : List Cell} :
    row.collect? host settings.policies finished = some cells ↔
      List.Forall₂ (fun policy cell =>
          OutcomeWithin host settings provisioners path policy events cell)
        settings.policies cells := by
  unfold Awaits at h
  unfold OutcomeWithin
  cases hload : Workflow.load host path with
  | error e =>
    rw [hload] at h
    subst h
    show some (settings.policies.map fun _ => Cell.failed e.message) = some cells ↔ _
    rw [Option.some.injEq, ← List.forall₂_eq_eq_eq, List.forall₂_map_left_iff]
  | ok w =>
    rw [hload] at h
    obtain ⟨handles, rfl, hruns⟩ := h
    have hcells : (PendingRow.running handles).collect? host settings.policies finished =
        settings.policies.mapM fun policy =>
          ((Run.mk w policy).result? events settings provisioners).map shown := by
      refine mapM_congr_of_forall₂ (hruns.imp fun handle policy hrun => ?_)
      rw [hf handle (List.getElem?_eq_some_iff.mp hrun).1, hrun, Option.bind_some]
      refine Option.map_congr fun result hresult => ofResult_eq_shown ?_ handle
      rintro rfl
      exact SimulatesTo.ne_crashed (valid_of_load hload) (hcalm w policy) ⟨events, hresult⟩ rfl
    rw [hcells, mapM_eq_some_iff]
    simp only [Option.map_eq_some_iff]

/-- Rows that are collected one by one have the paths and labels in order, and the cells of their
paths. -/
theorem collectRows_iff {policies : List Policy} {own : String → List Cell → Prop}
    {paths ls : List String} {pending : List PendingRow}
    (h : List.Forall₂ (fun path (row : PendingRow) =>
      ∀ cells, row.collect? host policies finished = some cells ↔ own path cells) paths pending)
    (hl : ls.length = paths.length) (rows : List Row) :
    (((paths.zip ls).zip pending).mapM fun ((path, label), row) => do
        return (⟨label, path, ← row.collect? host policies finished⟩ : Row)) = some rows ↔
      rows.map (·.path) = paths ∧ rows.map (·.label) = ls ∧
        ∀ row ∈ rows, own row.path row.cells := by
  rw [mapM_eq_some_iff]
  induction h generalizing ls rows with
  | nil =>
    obtain rfl := List.length_eq_zero_iff.mp hl
    cases rows <;> simp
  | @cons path pendingRow paths pending hrow _ ih =>
    obtain ⟨label, ls, rfl⟩ := List.exists_cons_of_length_eq_add_one hl
    cases rows with
    | nil => simp
    | cons row rows =>
      obtain ⟨label', path', cells⟩ := row
      rw [List.zip_cons_cons, List.zip_cons_cons, List.forall₂_cons, ih (Nat.succ.inj hl) rows]
      simp only [Option.bind_eq_bind, Option.bind_eq_some_iff, hrow, Option.pure_def,
        Option.some.injEq, Row.mk.injEq, List.map_cons, List.cons.injEq, List.forall_mem_cons]
      constructor
      · rintro ⟨⟨_, hown, rfl, rfl, rfl⟩, hp, hls, hcells⟩
        exact ⟨⟨rfl, hp⟩, ⟨rfl, hls⟩, hown, hcells⟩
      · rintro ⟨⟨rfl, hp⟩, ⟨rfl, hls⟩, hown, hcells⟩
        exact ⟨⟨cells, hown, rfl, rfl, rfl⟩, hp, hls, hcells⟩

end Collect

/-! ## The table -/

/-- A table with a row for each path in order, under its label. Its cells show what `own` says of the
path and of each policy in order. -/
structure Table.Shows (own : String → Policy → Cell → Prop) (policies : List Policy)
    (paths : List String) (t : Table) : Prop where
  columns : t.policies = policies
  rowPaths : t.rows.map (·.path) = paths
  rowLabels : t.rows.map (·.label) = labels paths
  rowCells : ∀ row ∈ t.rows, List.Forall₂ (own row.path) policies row.cells

section Table

variable {host : Host} {settings : Settings} {provisioners : Provisioners} {events : Nat}
  {paths : List String} {order : List Handle} {t : Table}

/-- Each run that is handed out has a cell to come to. -/
theorem exists_result {path : String} {cells : List Cell}
    (h : List.Forall₂ (fun policy cell =>
      OutcomeWithin host settings provisioners path policy events cell) settings.policies cells)
    {run : Run} (hr : run ∈ runsOf host settings path) :
    ∃ result, run.result? events settings provisioners = some result := by
  unfold runsOf at hr
  unfold OutcomeWithin at h
  cases hload : Workflow.load host path with
  | error e =>
    rw [hload] at hr
    cases hr
  | ok w =>
    rw [hload] at hr h
    obtain ⟨policy, hpolicy, rfl⟩ := List.mem_map.mp hr
    obtain ⟨cell, -, result, hresult, -⟩ := exists_mem_of_forall₂ h hpolicy
    exact ⟨result, hresult⟩

/-- In whatever order its runs finish, a sweep gives the table of what each file comes to under each
policy. -/
theorem runInOrder?_eq_some_iff (hcalm : provisioners.Calm)
    (horder : order.Perm (handles host settings paths)) :
    runInOrder? order events host settings provisioners paths = some t ↔
      t.Shows (fun path policy cell =>
          OutcomeWithin host settings provisioners path policy events cell)
        settings.policies paths := by
  have hmem : ∀ k, k ∈ order ↔ k < (spawnAll host settings [] paths).2.length := fun k =>
    horder.mem_iff.trans List.mem_range
  have hlength : (labels paths).length = paths.length := List.length_map _
  have hrows : ∀ finished, finish? events settings provisioners
      (spawnAll host settings [] paths).2 order = some finished → ∀ rows, _ ↔ _ :=
    fun finished hf => collectRows_iff
      ((awaits_spawnAll [] paths).imp fun _ _ hrow cells =>
        hrow.collect_iff hcalm fun k hk => lookup_of_finish hf ((hmem k).mpr hk)) hlength
  constructor
  · intro h
    obtain ⟨finished, hf, h⟩ := Option.bind_eq_some_iff.mp h
    obtain ⟨rows, hcollect, h⟩ := Option.bind_eq_some_iff.mp h
    obtain rfl := Option.some.inj h
    obtain ⟨hpaths, hlabels, hcells⟩ := (hrows finished hf rows).mp hcollect
    exact ⟨rfl, hpaths, hlabels, hcells⟩
  · intro h
    have hfinish : ∃ finished, finish? events settings provisioners
        (spawnAll host settings [] paths).2 order = some finished := by
      refine exists_finish fun k hk => ?_
      obtain ⟨run, hrun⟩ : ∃ run, (spawnAll host settings [] paths).2[k]? = some run :=
        ⟨_, List.getElem?_eq_getElem ((hmem k).mp hk)⟩
      have hr := List.mem_of_getElem? hrun
      rw [runs_spawnAll, List.nil_append, List.mem_flatMap] at hr
      obtain ⟨path, hpath, hr⟩ := hr
      rw [← h.rowPaths] at hpath
      obtain ⟨row, hrow, rfl⟩ := List.mem_map.mp hpath
      exact ⟨run, hrun, exists_result (h.rowCells row hrow) hr⟩
    obtain ⟨finished, hf⟩ := hfinish
    have hcollect := (hrows finished hf t.rows).mpr ⟨h.rowPaths, h.rowLabels, h.rowCells⟩
    refine Option.bind_eq_some_iff.mpr ⟨finished, hf, Option.bind_eq_some_iff.mpr
      ⟨t.rows, hcollect, ?_⟩⟩
    rw [← h.columns]
    rfl

/-- What a sweep comes to if its runs finish in the given order, once each of them may take enough
events. -/
def GivesTable (host : Host) (settings : Settings) (provisioners : Provisioners)
    (paths : List String) (order : List Handle) (t : Table) : Prop :=
  ∃ events, runInOrder? order events host settings provisioners paths = some t

theorem givesTable_iff (hcalm : provisioners.Calm)
    (horder : order.Perm (handles host settings paths)) :
    GivesTable host settings provisioners paths order t ↔
      t.Shows (Outcome host settings provisioners) settings.policies paths := by
  constructor
  · rintro ⟨events, h⟩
    have h := (runInOrder?_eq_some_iff hcalm horder).mp h
    refine ⟨h.columns, h.rowPaths, h.rowLabels, fun row hrow => ?_⟩
    exact (h.rowCells row hrow).imp fun policy cell hcell => outcome_iff.mpr ⟨events, hcell⟩
  · intro h
    have hrow : ∀ row ∈ t.rows, ∃ events, List.Forall₂
        (fun policy cell => OutcomeWithin host settings provisioners row.path policy events cell)
        settings.policies row.cells := by
      intro row hrow
      obtain ⟨hlength, hcells⟩ := List.forall₂_iff_zip.mp (h.rowCells row hrow)
      obtain ⟨events, hevents⟩ := exists_common_bound
        (P := fun events (entry : Policy × Cell) =>
          OutcomeWithin host settings provisioners row.path entry.1 events entry.2)
        (fun _ _ _ hmn => OutcomeWithin.mono hmn) fun _ hentry => outcome_iff.mp (hcells hentry)
      exact ⟨events, List.forall₂_iff_zip.mpr ⟨hlength, fun hentry => hevents _ hentry⟩⟩
    obtain ⟨events, hevents⟩ := exists_common_bound
      (fun _ _ _ hmn hall => hall.imp fun _ _ => OutcomeWithin.mono hmn) hrow
    exact ⟨events, (runInOrder?_eq_some_iff hcalm horder).mpr
      ⟨h.columns, h.rowPaths, h.rowLabels, hevents⟩⟩

/-- There is a table to show if each file comes to something under each policy. -/
theorem exists_shows_iff {own : String → Policy → Cell → Prop} {policies : List Policy} :
    (∃ t : Table, t.Shows own policies paths) ↔
      ∀ path ∈ paths, ∀ policy ∈ policies, ∃ cell, own path policy cell := by
  constructor
  · rintro ⟨t, h⟩ path hpath policy hpolicy
    rw [← h.rowPaths] at hpath
    obtain ⟨row, hrow, rfl⟩ := List.mem_map.mp hpath
    obtain ⟨cell, -, hcell⟩ := exists_mem_of_forall₂ (h.rowCells row hrow) hpolicy
    exact ⟨cell, hcell⟩
  · intro h
    have hrows : ∀ entry ∈ paths.zip (labels paths), ∃ row : Row, row.path = entry.1 ∧
        row.label = entry.2 ∧ List.Forall₂ (own row.path) policies row.cells := by
      rintro ⟨path, label⟩ hentry
      obtain ⟨cells, hcells⟩ := exists_forall₂ (h path (List.of_mem_zip hentry).1)
      exact ⟨⟨label, path, cells⟩, rfl, rfl, hcells⟩
    obtain ⟨rows, hrows⟩ := exists_forall₂ hrows
    have hlength : (labels paths).length = paths.length := List.length_map _
    refine ⟨⟨policies, rows⟩, rfl, ?_, ?_, fun row hrow => ?_⟩
    · rw [← List.map_fst_zip hlength.ge]
      exact map_eq_of_forall₂ (hrows.imp fun _ _ hr => hr.1)
    · rw [← List.map_snd_zip hlength.le]
      exact map_eq_of_forall₂ (hrows.imp fun _ _ hr => hr.2.1)
    · obtain ⟨_, -, -, -, hcells⟩ := exists_mem_of_forall₂ hrows.flip hrow
      exact hcells

/-- With distinct labels, a look-up finds the cell of that row and policy. -/
theorem Table.Shows.cell?_eq_some_iff {own : String → Policy → Cell → Prop}
    {policies : List Policy} (h : t.Shows own policies paths) (hlabels : (labels paths).Nodup)
    (hunique : ∀ path policy cell cell', own path policy cell → own path policy cell' →
      cell = cell')
    {row : Row} (hrow : row ∈ t.rows) {policy : Policy} (hpolicy : policy ∈ policies)
    {cell : Cell} : t.cell? row.label policy = some cell ↔ own row.path policy cell := by
  obtain rfl := h.columns
  obtain ⟨column, hcolumn⟩ : ∃ column, t.policies.findIdx? (· = policy) = some column := by
    rw [← Option.isSome_iff_exists, List.findIdx?_isSome, List.any_eq_true]
    exact ⟨policy, hpolicy, decide_eq_true rfl⟩
  obtain ⟨hlt, hget, -⟩ := List.findIdx?_eq_some_iff_getElem.mp hcolumn
  have hfind : t.rows.find? (·.label = row.label) = some row := by
    obtain ⟨found, hfound⟩ : ∃ found, t.rows.find? (·.label = row.label) = some found := by
      rw [← Option.isSome_iff_exists, List.find?_isSome]
      exact ⟨row, hrow, decide_eq_true rfl⟩
    have hlabel : found.label = row.label := by simpa using List.find?_some hfound
    rw [hfound, List.inj_on_of_nodup_map (h.rowLabels ▸ hlabels)
      (List.mem_of_find?_eq_some hfound) hrow hlabel]
  have hcells := h.rowCells row hrow
  have hlt' : column < row.cells.length := hcells.length_eq ▸ hlt
  have hown : own row.path policy row.cells[column] := by
    have hown := hcells.get hlt hlt'
    rwa [List.get_eq_getElem, of_decide_eq_true hget] at hown
  have hcell : t.cell? row.label policy = some row.cells[column] := by
    unfold Table.cell?
    rw [hcolumn, hfind]
    exact List.getElem?_eq_getElem hlt'
  rw [hcell, Option.some.injEq]
  exact ⟨fun he => he ▸ hown, hunique _ _ _ _ hown⟩

end Table

/-- A sweep over distinct paths, whose runs finish in any order. It comes to a table exactly if every
file comes to something under every policy on its own. The table has the paths in order, under
distinct labels, and the cells of a row are what its file comes to under the policies in order.
Looking up a label and a policy gives what that file comes to under that policy and nothing else. -/
theorem every_cell_stands_alone (host : Host) (settings : Settings)
    {provisioners : Provisioners} (hcalm : provisioners.Calm) {paths : List String}
    (hpaths : paths.Nodup)
    {order : List Handle} (horder : order.Perm (handles host settings paths)) :
    ((∃ t, GivesTable host settings provisioners paths order t) ↔
      ∀ path ∈ paths, ∀ policy ∈ settings.policies, ∃ cell,
        Outcome host settings provisioners path policy cell) ∧
    ∀ t, GivesTable host settings provisioners paths order t →
      t.policies = settings.policies ∧ t.rows.map (·.path) = paths ∧
      (t.rows.map (·.label)).Nodup ∧
      ∀ row ∈ t.rows,
        List.Forall₂ (Outcome host settings provisioners row.path) settings.policies row.cells ∧
        ∀ policy ∈ settings.policies, ∀ cell, t.cell? row.label policy = some cell ↔
          Outcome host settings provisioners row.path policy cell := by
  have hlabels := labels_nodup hpaths
  simp only [givesTable_iff hcalm horder]
  refine ⟨exists_shows_iff, fun t h => ⟨h.columns, h.rowPaths, h.rowLabels ▸ hlabels,
    fun row hrow => ⟨h.rowCells row hrow, fun policy hpolicy cell => ?_⟩⟩⟩
  exact h.cell?_eq_some_iff hlabels (fun _ _ _ _ => Outcome.unique) hrow hpolicy

/-- Two files of one name in different directories. -/
def twins : Place where
  root := .dir
    [("a", .dir [("w.toml", .file "[[job]]\nid = \"a\"\nruntime = 1.0\n".toUTF8)]),
      ("b", .dir [("w.toml", .file "[[job]]\nid = \"b\"\nruntime = 15\n".toUTF8)])]
  working := []

/-- The table of both files and of one that does not exist. -/
def twinsTable : Table where
  policies := Policy.all
  rows :=
    [⟨"a/w.toml", "a/w.toml", List.replicate 3 (.completed 10 1)⟩,
      ⟨"x.toml", "a/x.toml",
        List.replicate 3 (.failed "IO error: No such file or directory (os error 2)")⟩,
      ⟨"b/w.toml", "b/w.toml", List.replicate 3 (.completed 20 1)⟩]

/-- Their runs may finish in a mixed order. -/
theorem twins_stand_alone :
    GivesTable twins.host .oneWorker allCreated ["a/w.toml", "a/x.toml", "b/w.toml"]
        [5, 0, 3, 1, 4, 2] twinsTable ∧
      Outcome twins.host .oneWorker allCreated "b/w.toml" .levelBased (.completed 20 1) ∧
      Outcome twins.host .oneWorker allCreated "a/x.toml" .levelBased
        (.failed "IO error: No such file or directory (os error 2)") := by
  have horder : [5, 0, 3, 1, 4, 2].Perm
      (handles twins.host .oneWorker ["a/w.toml", "a/x.toml", "b/w.toml"]) := by decide +kernel
  have htable : GivesTable twins.host .oneWorker allCreated ["a/w.toml", "a/x.toml", "b/w.toml"]
      [5, 0, 3, 1, 4, 2] twinsTable := ⟨10, by decide +kernel⟩
  have hall := every_cell_stands_alone twins.host .oneWorker allCreated_calm (by decide) horder
  obtain ⟨-, -, -, hrows⟩ := hall.2 twinsTable htable
  obtain ⟨-, hcell⟩ := hrows ⟨"b/w.toml", "b/w.toml", List.replicate 3 (.completed 20 1)⟩
    (by decide +kernel)
  obtain ⟨-, hmissing⟩ := hrows ⟨"x.toml", "a/x.toml",
    List.replicate 3 (.failed "IO error: No such file or directory (os error 2)")⟩
    (by decide +kernel)
  exact ⟨htable, (hcell .levelBased (by decide) _).mp (by decide +kernel),
    (hmissing .levelBased (by decide) _).mp (by decide +kernel)⟩

end Sweep

end Makespan
