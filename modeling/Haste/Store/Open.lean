import Haste.Store.Statements

/-!
# Opening a database file

A file may have been written by any earlier build: it may lack the table, the
counters, and the columns added after the first release.  `Open` brings it up
to the current shape one statement at a time, each committed on its own, and
may stop after any of them.  `File.content` is what the file holds read with
the defaults of the missing parts, and no statement but the reconciliation
changes it.
-/

namespace Haste
namespace Store

open Foundation

/-- The columns of `pastes`. -/
inductive Column
  | seq
  | code
  | body
  | codec
  | bytes
  | chars
  | rawBytes
  | language
  | title
  | createdAt
  | accessedAt
  | expiresAt
  deriving DecidableEq, Repr

/-- The columns added after the first release: `addedColumns`. -/
def addedColumns : List Column := [.expiresAt, .title]

/-- The columns the trigger `pastes_immutable` guards. -/
def immutableColumns : List Column :=
  [.seq, .code, .body, .codec, .bytes, .chars, .rawBytes, .language, .title,
    .createdAt, .expiresAt]

/-- The table of a file: its rows and which of the added columns it has.  The
cell of a column that is missing is never read. -/
structure Table where
  pastes : Pastes
  columns : List Column

/-- A database file.  Parts an earlier build did not create are `none`. -/
structure File where
  table : Option Table
  pasteSeq : Option Nat
  storedBytes : Option Int
  guarded : Option (List Column)

/-- The file before the first `Open`. -/
def File.fresh : File where
  table := none
  pasteSeq := none
  storedBytes := none
  guarded := none

/-- A row without the value of an added column, which then has its default. -/
def Row.withDefault (column : Column) (row : Row) : Row :=
  match column with
  | .expiresAt => { row with expiresAt := none }
  | .title => { row with title := [] }
  | _ => row

@[simp] theorem Row.withDefault_seq (column : Column) (row : Row) :
    (row.withDefault column).seq = row.seq := by
  cases column <;> rfl

@[simp] theorem Row.withDefault_code (column : Column) (row : Row) :
    (row.withDefault column).code = row.code := by
  cases column <;> rfl

/-- Give every row the default of a column. -/
def Pastes.withDefault (pastes : Pastes) (column : Column) : Pastes where
  rows := pastes.rows.map (Row.withDefault column)
  seqs_nodup := by
    have sameSeqs : Row.seq ∘ Row.withDefault column = Row.seq := by
      funext row
      simp
    rw [List.map_map, sameSeqs]
    exact pastes.seqs_nodup
  codes_nodup := by
    have sameCodes : Row.code ∘ Row.withDefault column = Row.code := by
      funext row
      simp
    rw [List.map_map, sameCodes]
    exact pastes.codes_nodup

/-- `ALTER TABLE pastes ADD COLUMN`, unless the table has the column. -/
def Table.addColumn (table : Table) (column : Column) : Table :=
  if column ∈ table.columns then table
  else
    { pastes := table.pastes.withDefault column
      columns := column :: table.columns }

/-- The rows of a table, with the defaults of the columns it lacks. -/
def Table.read (table : Table) : Pastes :=
  (addedColumns.foldl Table.addColumn table).pastes

/-- What a file holds. -/
def File.content (file : File) : Database where
  pastes := (file.table.map Table.read).getD Pastes.empty
  pasteSeq := file.pasteSeq.getD 0
  storedBytes := file.storedBytes.getD 0

/-- The statements of `Open`, in the files `schema.sql` and `constraints.sql`
and between them. -/
inductive OpenStep
  | connectWriter
  | insertPasteSeq
  | insertStoredBytes
  | createPastes
  | readShape
  | addColumn (column : Column)
  | dropTrigger
  | createTrigger
  | reconcile
  | connectReaders
  deriving DecidableEq, Repr

/-- One statement of `Open`.  Only the sum of the row sizes can overflow. -/
def OpenStep.apply (file : File) : OpenStep → Option File
  | .connectWriter => some file
  | .insertPasteSeq => some { file with pasteSeq := some (file.pasteSeq.getD 0) }
  | .insertStoredBytes =>
      some { file with storedBytes := some (file.storedBytes.getD 0) }
  | .createPastes =>
      some { file with
        table := some (file.table.getD
          { pastes := Pastes.empty, columns := addedColumns }) }
  | .readShape => some file
  | .addColumn column =>
      some { file with table := file.table.map fun table =>
        table.addColumn column }
  | .dropTrigger => some { file with guarded := none }
  | .createTrigger => some { file with guarded := some immutableColumns }
  | .reconcile =>
      let total := file.content.pastes.totalBytes
      if 2 ^ 63 ≤ total then none
      else some { file with storedBytes := some total }
  | .connectReaders => some file

/-- The statements of `Open`, in order. -/
def openSteps : List OpenStep :=
  [.connectWriter, .insertPasteSeq, .insertStoredBytes, .createPastes,
    .readShape] ++
    addedColumns.map .addColumn ++
    [.dropTrigger, .createTrigger, .reconcile, .connectReaders]

/-- Run statements until one fails: `stopped` is the number of statements that
succeed before something outside the data stops the rest. -/
def runSteps (stopped : Option Nat) : List OpenStep → File → Bool × File
  | [], file => (true, file)
  | step :: rest, file =>
      if stopped = some 0 then (false, file)
      else match step.apply file with
        | none => (false, file)
        | some next => runSteps (stopped.map (· - 1)) rest next

/-- `Open` on a file: whether it succeeds, and the file it leaves. -/
def openFile (stopped : Option Nat) (file : File) : Bool × File :=
  runSteps stopped openSteps file

/-- The file of an open database. -/
def Database.file (db : Database) : File where
  table := some { pastes := db.pastes, columns := addedColumns }
  pasteSeq := some db.pasteSeq
  storedBytes := some db.storedBytes
  guarded := some immutableColumns

@[simp] theorem Database.content_file (db : Database) : db.file.content = db := rfl

/-! ## What opening keeps -/

/-- The same rows and the same sequence counter. -/
def Database.SameContent (db other : Database) : Prop :=
  other.pastes = db.pastes ∧ other.pasteSeq = db.pasteSeq

/-- A default of one column and one of another column can be set in either
order. -/
theorem Table.read_addColumn
    (table : Table)
    {column : Column}
    (added : column ∈ addedColumns) :
    (table.addColumn column).read = table.read := by
  simp only [addedColumns, List.mem_cons, List.not_mem_nil, or_false] at added
  unfold read addedColumns
  simp only [List.foldl_cons, List.foldl_nil]
  by_cases hasExpiry : Column.expiresAt ∈ table.columns <;>
    by_cases hasTitle : Column.title ∈ table.columns <;>
    rcases added with rfl | rfl <;>
    simp [addColumn, hasExpiry, hasTitle, Pastes.withDefault, Row.withDefault,
      Function.comp_def]

/-- A statement of `Open` keeps what the file holds; the reconciliation sets
the counter of stored bytes to the total. -/
theorem OpenStep.content_apply
    {step : OpenStep}
    (listed : step ∈ openSteps)
    {file next : File}
    (applied : step.apply file = some next) :
    file.content.SameContent next.content ∧
      (step = .reconcile → next.content.Accounted) := by
  cases step with
  | connectWriter | readShape | connectReaders =>
      cases applied
      exact ⟨⟨rfl, rfl⟩, by simp⟩
  | insertPasteSeq | insertStoredBytes | dropTrigger | createTrigger =>
      cases applied
      exact ⟨⟨rfl, rfl⟩, by simp⟩
  | createPastes =>
      cases applied
      refine ⟨⟨?_, rfl⟩, by simp⟩
      unfold File.content
      cases file.table <;> rfl
  | addColumn column =>
      cases applied
      have added : column ∈ addedColumns := by
        simpa [openSteps] using listed
      refine ⟨⟨?_, rfl⟩, by simp⟩
      unfold File.content
      cases file.table with
      | none => rfl
      | some table => exact table.read_addColumn added
  | reconcile =>
      simp only [apply] at applied
      split at applied
      · cases applied
      · rename_i inRange
        cases applied
        exact ⟨⟨rfl, rfl⟩, fun _ => ⟨rfl, not_le.mp inRange⟩⟩

theorem runSteps_sameContent
    {steps : List OpenStep}
    (listed : ∀ step ∈ steps, step ∈ openSteps)
    (stopped : Option Nat)
    (file : File) :
    file.content.SameContent (runSteps stopped steps file).2.content := by
  induction steps generalizing stopped file with
  | nil => exact ⟨rfl, rfl⟩
  | cons step rest inductionHypothesis =>
      obtain ⟨stepListed, restListed⟩ := List.forall_mem_cons.mp listed
      unfold runSteps
      split
      · exact ⟨rfl, rfl⟩
      · cases applied : step.apply file with
        | none => exact ⟨rfl, rfl⟩
        | some next =>
            have same := (OpenStep.content_apply stepListed applied).1
            have rest := inductionHypothesis restListed (stopped.map (· - 1)) next
            exact ⟨rest.1.trans same.1, rest.2.trans same.2⟩

/-- A run that succeeds has done its first statement and goes on after it. -/
theorem runSteps_cons_of_done
    {stopped : Option Nat}
    {step : OpenStep}
    {rest : List OpenStep}
    {file : File}
    (done : (runSteps stopped (step :: rest) file).1 = true) :
    ∃ next, step.apply file = some next ∧
      runSteps stopped (step :: rest) file =
        runSteps (stopped.map (· - 1)) rest next := by
  rw [runSteps] at done
  split at done
  · cases done
  · rename_i running
    cases applied : step.apply file with
    | none =>
        rw [applied] at done
        cases done
    | some next =>
        refine ⟨next, rfl, ?_⟩
        rw [runSteps, if_neg running, applied]

theorem runSteps_append_of_done
    {stopped : Option Nat}
    {before after : List OpenStep}
    {file : File}
    (done : (runSteps stopped (before ++ after) file).1 = true) :
    ∃ stoppedAfter middle,
      runSteps stopped (before ++ after) file =
        runSteps stoppedAfter after middle := by
  induction before generalizing stopped file with
  | nil => exact ⟨stopped, file, rfl⟩
  | cons step before inductionHypothesis =>
      rw [List.cons_append] at done ⊢
      obtain ⟨next, _, same⟩ := runSteps_cons_of_done done
      rw [same] at done ⊢
      exact inductionHypothesis done

/-- `Open` keeps the rows and the sequence counter, however far it gets, and
when it succeeds the counter of stored bytes is exact. -/
theorem openFile_spec (stopped : Option Nat) (file : File) :
    file.content.SameContent (openFile stopped file).2.content ∧
      ((openFile stopped file).1 = true →
        (openFile stopped file).2.content.Accounted) := by
  refine ⟨runSteps_sameContent (fun _ listed => listed) stopped file, ?_⟩
  intro done
  have order : openSteps =
      openSteps.take 9 ++ [.reconcile, .connectReaders] := by decide
  unfold openFile at done ⊢
  rw [order] at done ⊢
  obtain ⟨stoppedAfter, middle, same⟩ := runSteps_append_of_done done
  rw [same] at done ⊢
  obtain ⟨reconciled, isReconciled, same⟩ := runSteps_cons_of_done done
  rw [same] at done ⊢
  obtain ⟨connected, isConnected, same⟩ := runSteps_cons_of_done done
  rw [same]
  cases isConnected
  exact (OpenStep.content_apply (by decide) isReconciled).2 rfl

/-- Reopening the file of an open store changes nothing. -/
theorem openFile_file
    {db : Database}
    (accounted : db.Accounted) :
    openFile none db.file = (true, db.file) := by
  have inRange : ¬2 ^ 63 ≤ db.file.content.pastes.totalBytes :=
    not_le.mpr accounted.inRange
  have reconciled : OpenStep.apply db.file .reconcile = some db.file := by
    simp only [OpenStep.apply, if_neg inRange]
    simp only [Database.file, accounted.stored]
    rfl
  have upToReconcile : openFile none db.file =
      match OpenStep.apply db.file .reconcile with
      | none => (false, db.file)
      | some next => runSteps none [.connectReaders] next := rfl
  rw [upToReconcile, reconciled]
  rfl

end Store
end Haste
