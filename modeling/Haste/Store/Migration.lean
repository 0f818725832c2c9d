import Haste.Store.Open
import Haste.Store.Reads

/-!
# What opening makes of an older file

`Open` runs its statements one after the other, and each start may be cut off
after any of them.  What the whole sequence makes of a file does not depend on
how much of it an earlier start has already done, so however many starts were
cut off, the first one that succeeds leaves the same file.
-/

namespace Haste
namespace Store

open Foundation

/-- A row read with the defaults of the columns its table lacks. -/
def Row.filled (columns : List Column) (row : Row) : Row :=
  { row with
    expiresAt := if .expiresAt ∈ columns then row.expiresAt else none
    title := if .title ∈ columns then row.title else [] }

/-- `addMissingColumns`. -/
def Table.migrated (table : Table) : Table :=
  addedColumns.foldl Table.addColumn table

/-- The file that `Open` leaves when it succeeds. -/
def File.opened (file : File) : File where
  table := some (file.table.getD
    { pastes := Pastes.empty, columns := addedColumns }).migrated
  pasteSeq := some (file.pasteSeq.getD 0)
  storedBytes := some file.content.pastes.totalBytes
  guarded := some immutableColumns

namespace Table

variable (table : Table)

theorem mem_addColumn (column : Column) : column ∈ (table.addColumn column).columns := by
  unfold addColumn
  split
  case isTrue present => exact present
  case isFalse => exact List.mem_cons_self

/-- A column that is there is not added again. -/
theorem addColumn_of_mem
    {table : Table}
    {column : Column}
    (present : column ∈ table.columns) :
    table.addColumn column = table :=
  if_pos present

theorem columns_subset_addColumn (column : Column) :
    table.columns ⊆ (table.addColumn column).columns := by
  unfold addColumn
  split
  · exact List.Subset.refl _
  · exact List.subset_cons_self _ _

/-- Every added column is there afterwards. -/
theorem mem_migrated {column : Column} (added : column ∈ addedColumns) :
    column ∈ table.migrated.columns := by
  simp only [addedColumns, List.mem_cons, List.not_mem_nil, or_false] at added
  rcases added with rfl | rfl
  · exact columns_subset_addColumn _ _ (mem_addColumn _ _)
  · exact mem_addColumn _ _

/-- A table that has every added column is left alone. -/
theorem migrated_of_complete
    {table : Table}
    (complete : ∀ column ∈ addedColumns, column ∈ table.columns) :
    table.migrated = table := by
  have expiresAt := addColumn_of_mem (complete .expiresAt (by decide))
  have title := addColumn_of_mem (complete .title (by decide))
  simp only [migrated, addedColumns, List.foldl_cons, List.foldl_nil, expiresAt,
    title]

theorem migrated_migrated : table.migrated.migrated = table.migrated :=
  migrated_of_complete fun _ added => table.mem_migrated added

/-- The first added column may have been added before. -/
theorem migrated_addColumn_expiresAt :
    (table.addColumn .expiresAt).migrated = table.migrated := by
  have present := addColumn_of_mem (table.mem_addColumn .expiresAt)
  simp only [migrated, addedColumns, List.foldl_cons, List.foldl_nil, present]

/-- So may the second one, after the first. -/
theorem migrated_addColumn_title
    {table : Table}
    (ordered : .expiresAt ∈ table.columns) :
    (table.addColumn .title).migrated = table.migrated := by
  have first := addColumn_of_mem ordered
  have complete : table.migrated = table.addColumn .title := by
    simp only [migrated, addedColumns, List.foldl_cons, List.foldl_nil, first]
  rw [← complete, migrated_migrated]

/-- A table that has the added columns is read as it is. -/
theorem map_filled_of_complete
    {table : Table}
    (complete : ∀ column ∈ addedColumns, column ∈ table.columns) :
    table.pastes.rows.map (Row.filled table.columns) = table.pastes.rows := by
  have same : Row.filled table.columns = id := by
    funext row
    simp [Row.filled, complete .expiresAt (by decide), complete .title (by decide)]
  rw [same, List.map_id]

/-- The rows are those of the file, with the defaults of what it lacked. -/
theorem rows_migrated :
    table.migrated.pastes.rows = table.pastes.rows.map (Row.filled table.columns) := by
  by_cases complete : ∀ column ∈ addedColumns, column ∈ table.columns
  · rw [migrated_of_complete complete, map_filled_of_complete complete]
  · simp only [addedColumns, List.forall_mem_cons, List.not_mem_nil,
      false_implies, implies_true, and_true] at complete
    by_cases hasExpiry : Column.expiresAt ∈ table.columns <;>
      by_cases hasTitle : Column.title ∈ table.columns
    · exact absurd ⟨hasExpiry, hasTitle⟩ complete
    all_goals
      simp [migrated, addedColumns, addColumn, hasExpiry, hasTitle,
        Pastes.withDefault, Row.withDefault, Row.filled, Function.comp_def]

/-- A file that had no expiries has none afterwards. -/
theorem expiresAt_migrated
    {table : Table}
    (missing : .expiresAt ∉ table.columns) :
    ∀ row ∈ table.migrated.pastes.rows, row.expiresAt = none := by
  rw [rows_migrated]
  intro row listed
  obtain ⟨old, _, rfl⟩ := List.mem_map.mp listed
  exact if_neg missing

/-- A file that had no titles has empty ones afterwards. -/
theorem title_migrated
    {table : Table}
    (missing : .title ∉ table.columns) :
    ∀ row ∈ table.migrated.pastes.rows, row.title = [] := by
  rw [rows_migrated]
  intro row listed
  obtain ⟨old, _, rfl⟩ := List.mem_map.mp listed
  exact if_neg missing

end Table

/-! ## One start -/

/-- The file up to the reconciliation. -/
def File.prepared (file : File) : File :=
  { file.opened with storedBytes := some (file.storedBytes.getD 0) }

theorem File.content_pastes_opened (file : File) :
    file.opened.content.pastes = file.content.pastes := by
  have read : ∀ table : Table, table.migrated.read = table.read :=
    fun table => congrArg Table.pastes table.migrated_migrated
  unfold File.content File.opened
  cases file.table with
  | none => rfl
  | some table => exact read table

theorem File.opened_opened (file : File) : file.opened.opened = file.opened := by
  have total : file.opened.content.pastes.totalBytes =
      file.content.pastes.totalBytes :=
    congrArg Pastes.totalBytes file.content_pastes_opened
  have table := (file.table.getD
    { pastes := Pastes.empty, columns := addedColumns }).migrated_migrated
  unfold File.opened at total ⊢
  simp only [Option.getD_some, table, total]

/-- What a part of the statements leaves is where the rest begins. -/
theorem runSteps_append
    {before after : List OpenStep}
    {file middle : File}
    (ran : runSteps none before file = (true, middle)) :
    runSteps none (before ++ after) file = runSteps none after middle := by
  induction before generalizing file with
  | nil =>
      cases ran
      rfl
  | cons step before inductionHypothesis =>
      have done : (runSteps none (step :: before) file).1 = true :=
        congrArg Prod.fst ran
      obtain ⟨next, applied, same⟩ := runSteps_cons_of_done done
      rw [same] at ran
      rw [List.cons_append, runSteps, if_neg (by simp), applied]
      exact inductionHypothesis ran

/-- A start that nothing stops runs up to the reconciliation, which needs the
sum of the row sizes. -/
theorem openFile_none (file : File) :
    openFile none file =
      if 2 ^ 63 ≤ file.content.pastes.totalBytes then (false, file.prepared)
      else (true, file.opened) := by
  have samePastes : file.prepared.content.pastes = file.content.pastes :=
    file.content_pastes_opened
  have order : openSteps =
      openSteps.take 9 ++ [.reconcile, .connectReaders] := by decide
  have ran : runSteps none (openSteps.take 9) file = (true, file.prepared) := rfl
  unfold openFile
  rw [order, runSteps_append ran]
  by_cases tooLarge : 2 ^ 63 ≤ file.content.pastes.totalBytes
  · simp only [runSteps, OpenStep.apply, samePastes, if_pos tooLarge,
      reduceCtorEq, if_false]
  · simp only [runSteps, OpenStep.apply, samePastes, if_neg tooLarge,
      Option.map_none, reduceCtorEq, if_false]
    rfl

/-- A start that nothing stops succeeds if the sizes of the rows have a 64-bit
sum. -/
theorem openFile_done_iff (file : File) :
    (openFile none file).1 = true ↔ file.content.pastes.totalBytes < 2 ^ 63 := by
  rw [openFile_none, ← not_le]
  by_cases tooLarge : 2 ^ 63 ≤ file.content.pastes.totalBytes
  · rw [if_pos tooLarge]
    exact ⟨nofun, absurd tooLarge⟩
  · rw [if_neg tooLarge]
    exact ⟨fun _ => tooLarge, fun _ => rfl⟩

/-- A start that succeeds was not stopped. -/
theorem runSteps_of_done
    {stopped : Option Nat}
    {steps : List OpenStep}
    {file : File}
    (done : (runSteps stopped steps file).1 = true) :
    runSteps stopped steps file = runSteps none steps file := by
  induction steps generalizing stopped file with
  | nil => rfl
  | cons step rest inductionHypothesis =>
      obtain ⟨next, applied, same⟩ := runSteps_cons_of_done done
      rw [same] at done ⊢
      rw [inductionHypothesis done, runSteps, if_neg (by simp), applied]
      rfl

theorem openFile_eq_opened
    {stopped : Option Nat}
    {file : File}
    (done : (openFile stopped file).1 = true) :
    (openFile stopped file).2 = file.opened := by
  have unstopped : openFile stopped file = openFile none file :=
    runSteps_of_done done
  rw [unstopped, openFile_none] at done ⊢
  split at done
  · cases done
  · rename_i inRange
    rw [if_neg inRange]

/-! ## Starts that are cut off -/

/-- The table of the file, if it has one, has the column. -/
def File.Has (file : File) (column : Column) : Prop :=
  ∀ table ∈ file.table, column ∈ table.columns

/-- No statement of `Open` drops a column. -/
theorem OpenStep.has_apply
    {step : OpenStep}
    {file next : File}
    (applied : step.apply file = some next)
    (has : file.Has .expiresAt) :
    next.Has .expiresAt := by
  cases step with
  | connectWriter | insertPasteSeq | insertStoredBytes | readShape |
    dropTrigger | createTrigger | connectReaders =>
      cases applied
      exact has
  | createPastes =>
      cases applied
      intro table created
      cases held : file.table with
      | none =>
          rw [held] at created
          cases created
          decide
      | some old =>
          rw [held] at created
          cases created
          exact has old held
  | addColumn column =>
      cases applied
      intro table altered
      obtain ⟨old, held, rfl⟩ := Option.map_eq_some_iff.mp altered
      exact old.columns_subset_addColumn column (has old held)
  | reconcile =>
      simp only [apply] at applied
      split at applied
      · cases applied
      · cases applied
        exact has

/-- A statement of `Open` does not change what `Open` makes of the file, if the
columns are added in their order. -/
theorem OpenStep.opened_apply
    {step : OpenStep}
    (listed : step ∈ openSteps)
    {file next : File}
    (applied : step.apply file = some next)
    (ordered : step = .addColumn .title → file.Has .expiresAt) :
    next.opened = file.opened := by
  obtain ⟨samePastes, seq⟩ := (content_apply listed applied).1
  have total : next.content.pastes.totalBytes = file.content.pastes.totalBytes :=
    congrArg Pastes.totalBytes samePastes
  have table : (next.table.getD
        { pastes := Pastes.empty, columns := addedColumns }).migrated =
      (file.table.getD
        { pastes := Pastes.empty, columns := addedColumns }).migrated := by
    cases step with
    | connectWriter | insertPasteSeq | insertStoredBytes | readShape |
      dropTrigger | createTrigger | connectReaders =>
        cases applied
        rfl
    | createPastes =>
        cases applied
        rfl
    | addColumn column =>
        cases applied
        have added : column ∈ addedColumns := by
          simpa [openSteps] using listed
        simp only [addedColumns, List.mem_cons, List.not_mem_nil, or_false] at added
        cases held : file.table with
        | none => rfl
        | some old =>
            rcases added with rfl | rfl
            · exact old.migrated_addColumn_expiresAt
            · exact Table.migrated_addColumn_title (ordered rfl old held)
    | reconcile =>
        simp only [apply] at applied
        split at applied
        · cases applied
        · cases applied
          rfl
  have seq : next.pasteSeq.getD 0 = file.pasteSeq.getD 0 := seq
  simp only [File.opened, total, table, seq]

/-- Statements of `Open`, as many as are done, leave a file of which `Open`
makes the same.  The first added column is there before the second is added. -/
theorem runSteps_opened
    {steps : List OpenStep}
    (listed : ∀ step ∈ steps, step ∈ openSteps)
    (ordered : steps.Pairwise fun first second =>
      second = .addColumn .expiresAt → first ≠ .addColumn .title)
    (stopped : Option Nat)
    (file : File)
    (ready : .addColumn .expiresAt ∈ steps ∨ file.Has .expiresAt) :
    (runSteps stopped steps file).2.opened = file.opened := by
  induction steps generalizing stopped file with
  | nil => rfl
  | cons step rest inductionHypothesis =>
      obtain ⟨stepListed, restListed⟩ := List.forall_mem_cons.mp listed
      obtain ⟨first, restOrdered⟩ := List.pairwise_cons.mp ordered
      unfold runSteps
      split
      · rfl
      · cases applied : step.apply file with
        | none => rfl
        | some next =>
            have stepOrdered : step = .addColumn .title → file.Has .expiresAt := by
              rintro rfl
              refine ready.resolve_left fun later => ?_
              rcases List.mem_cons.mp later with same | later
              · cases same
              · exact first _ later rfl rfl
            have restReady : .addColumn .expiresAt ∈ rest ∨ next.Has .expiresAt := by
              rcases ready with listedHere | has
              · rcases List.mem_cons.mp listedHere with rfl | later
                · cases applied
                  right
                  intro table altered
                  obtain ⟨old, _, rfl⟩ := Option.map_eq_some_iff.mp altered
                  exact old.mem_addColumn .expiresAt
                · exact .inl later
              · exact .inr (OpenStep.has_apply applied has)
            calc (runSteps (stopped.map (· - 1)) rest next).2.opened
                = next.opened :=
                  inductionHypothesis restListed restOrdered _ next restReady
              _ = file.opened := OpenStep.opened_apply stepListed applied stepOrdered

/-- However far a start gets, the next one has the same to do. -/
theorem openFile_opened (stopped : Option Nat) (file : File) :
    (openFile stopped file).2.opened = file.opened :=
  runSteps_opened (fun _ listed => listed) (by decide) stopped file
    (.inl (by decide))

/-- A file after starts that got as far as given. -/
def File.afterStarts (file : File) (starts : List (Option Nat)) : File :=
  starts.foldl (fun file stopped => (openFile stopped file).2) file

theorem File.opened_afterStarts (file : File) (starts : List (Option Nat)) :
    (file.afterStarts starts).opened = file.opened := by
  unfold afterStarts
  induction starts generalizing file with
  | nil => rfl
  | cons stopped starts inductionHypothesis =>
      rw [List.foldl_cons, inductionHypothesis, openFile_opened]

theorem File.sameContent_afterStarts (file : File) (starts : List (Option Nat)) :
    file.content.SameContent (file.afterStarts starts).content := by
  unfold afterStarts
  induction starts generalizing file with
  | nil => exact ⟨rfl, rfl⟩
  | cons stopped starts inductionHypothesis =>
      rw [List.foldl_cons]
      have first := (openFile_spec stopped file).1
      have later := inductionHypothesis (openFile stopped file).2
      exact ⟨later.1.trans first.1, later.2.trans first.2⟩

/-! ## What the file has become -/

/-- A file that `Open` has brought up to the current shape. -/
structure File.Migrated (old new : File) : Prop where
  /-- Every row keeps the values it had; a column that was missing has its
  default. -/
  rows : ∀ table ∈ old.table, ∃ migrated ∈ new.table,
    migrated.pastes.rows = table.pastes.rows.map (Row.filled table.columns)
  /-- A file without the table has an empty one. -/
  created : old.table = none → ∃ table ∈ new.table, table.pastes.rows = []
  columns : ∀ table ∈ new.table, ∀ column ∈ addedColumns, column ∈ table.columns
  /-- A row from before there were expiries has no lifetime. -/
  permanent : ∀ table ∈ old.table, .expiresAt ∉ table.columns →
    ∀ migrated ∈ new.table, ∀ row ∈ migrated.pastes.rows,
      ∀ storedSize, (row.paste storedSize).expiresAt = none
  untitled : ∀ table ∈ old.table, .title ∉ table.columns →
    ∀ migrated ∈ new.table, ∀ row ∈ migrated.pastes.rows,
      ∀ storedSize, (row.paste storedSize).title = []
  pasteSeq : ∀ seq ∈ old.pasteSeq, new.pasteSeq = some seq
  storedBytes : ∀ table ∈ new.table,
    new.storedBytes = some ((table.pastes.rows.map Row.bytes).sum : Nat)
  guarded : ∃ columns ∈ new.guarded,
    ∀ column, column ∈ columns ↔ column ≠ .accessedAt

theorem mem_immutableColumns (column : Column) :
    column ∈ immutableColumns ↔ column ≠ .accessedAt := by
  cases column <;> decide

theorem File.migrated_opened (file : File) : file.Migrated file.opened where
  rows := by
    intro table held
    refine ⟨table.migrated, ?_, table.rows_migrated⟩
    rw [File.opened, held]
    rfl
  created := by
    intro missing
    refine ⟨_, rfl, ?_⟩
    rw [missing]
    rfl
  columns := by
    rintro _ ⟨⟩
    exact fun column => Table.mem_migrated _
  permanent := by
    rintro table held missing _ ⟨⟩ row listed storedSize
    rw [held] at listed
    have none := Table.expiresAt_migrated missing row listed
    simp only [Row.paste, none, Option.map_none]
  untitled := by
    rintro table held missing _ ⟨⟩ row listed storedSize
    rw [held] at listed
    exact Table.title_migrated missing row listed
  pasteSeq := by
    intro seq held
    rw [File.opened, held]
    rfl
  storedBytes := by
    rintro table held
    have pastes : table.pastes = file.content.pastes := by
      rw [← file.content_pastes_opened]
      cases held
      exact (congrArg Table.pastes (Table.migrated_migrated _)).symm
    rw [pastes]
    rfl
  guarded := ⟨immutableColumns, rfl, mem_immutableColumns⟩

/-- Whatever a file holds and however many starts have been cut off: what it
holds is kept at every point, the first start that succeeds leaves the one
migrated file, and a start that nothing stops succeeds unless the sizes of the
rows have no 64-bit sum.  Opening that file again changes nothing. -/
theorem open_migrates (file : File) (starts : List (Option Nat)) :
    file.content.SameContent (file.afterStarts starts).content ∧
      (∀ stopped, (openFile stopped (file.afterStarts starts)).1 = true →
        (openFile stopped (file.afterStarts starts)).2 = file.opened) ∧
      ((openFile none (file.afterStarts starts)).1 = true ↔
        (file.content.pastes.rows.map Row.bytes).sum < 2 ^ 63) ∧
      file.Migrated file.opened ∧
      (openFile none file.opened = (true, file.opened) ↔
        (file.content.pastes.rows.map Row.bytes).sum < 2 ^ 63) := by
  have samePastes := (file.sameContent_afterStarts starts).1
  refine ⟨file.sameContent_afterStarts starts, ?_, ?_, file.migrated_opened, ?_⟩
  · intro stopped done
    rw [openFile_eq_opened done, file.opened_afterStarts]
  · rw [openFile_done_iff, samePastes]
    rfl
  · have done := openFile_done_iff file.opened
    rw [file.content_pastes_opened] at done
    refine Iff.trans ⟨congrArg Prod.fst, fun succeeded => ?_⟩ done
    exact Prod.ext succeeded
      ((openFile_eq_opened succeeded).trans file.opened_opened)

end Store
end Haste
