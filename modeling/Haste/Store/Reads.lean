import Haste.Store.Create

/-!
# Reading a paste

`Get` and `Meta` select the row with a code unless its own lifetime or one of
the operator's lifetimes has run out.  An operator's lifetime is turned into
the second up to which rows are stale; zero stands for a disabled rule.
-/

namespace Haste
namespace Store

open Go

/-- `cutoff`. -/
def cutoff (now ttl : Int) : Int :=
  if ttl ≤ 0 then 0 else unix (now - ttl)

/-- The condition of the read queries on the row. -/
def visible (options : Options) (now : Int) (row : Row) : Bool :=
  let accessCutoff := cutoff now options.ttlAccess
  let createCutoff := cutoff now options.ttlCreate
  (match row.expiresAt with
    | none => true
    | some expires => decide (unix now < expires)) &&
  (accessCutoff == 0 || decide (accessCutoff < row.accessedAt)) &&
  (createCutoff == 0 || decide (createCutoff < row.createdAt))

/-- The row a read query finds. -/
def select
    (options : Options)
    (now : Int)
    (code : Bytes)
    (db : Database) : Option Row :=
  db.pastes.rows.find? fun row => row.code == code && visible options now row

/-- The paste read from a row. -/
def Row.paste (row : Row) (storedSize : Int) : Paste where
  seq := row.seq
  code := row.code
  language := row.language
  title := row.title
  chars := row.chars
  rawBytes := row.rawBytes
  storedSize := storedSize
  createdAt := ofUnix row.createdAt
  expiresAt := row.expiresAt.map ofUnix

/-- A read query: a malformed code is not looked up, and the row found is turned
into the answer. -/
def readRow
    (options : Options)
    (env : Env)
    (statement : Statement)
    (answer : Row → Except Error Value)
    (code : Bytes)
    (db : Database) : Except Error Value :=
  if Id.valid code = false then .error .notFound
  else if env.fails db statement then
    .error (.statement statement .environment)
  else match select options env.now code db with
    | none => .error .notFound
    | some row => answer row

/-- `Get`, up to the recording of the access. -/
def get (options : Options) (env : Env) :
    Bytes → Database → Except Error (Paste × Bytes) :=
  readRow options env .readPaste fun row =>
    match options.codec.decompress row.body row.codec row.rawBytes with
    | .error error => .error (.codec error)
    | .ok content => .ok (row.paste row.body.length, content)

/-- `Meta`. -/
def metadata (options : Options) (env : Env) :
    Bytes → Database → Except Error Paste :=
  readRow options env .readMetadata fun row => .ok (row.paste row.bytes)

theorem cutoff_mono
    {earlier later : Int}
    (le : earlier ≤ later)
    (ttl : Int) :
    cutoff earlier ttl ≤ cutoff later ttl := by
  unfold cutoff
  split
  · exact le_rfl
  · exact unix_mono (by omega)

/-- A row within its own lifetime. -/
def Row.unexpired (row : Row) (now : Int) : Prop :=
  ∀ expires ∈ row.expiresAt, unix now < expires

/-- A time an operator's lifetime does not hide. -/
def withinTTL (now ttl time : Int) : Prop :=
  cutoff now ttl = 0 ∨ cutoff now ttl < time

theorem visible_iff (options : Options) (now : Int) (row : Row) :
    visible options now row = true ↔
      row.unexpired now ∧ withinTTL now options.ttlAccess row.accessedAt ∧
        withinTTL now options.ttlCreate row.createdAt := by
  unfold visible Row.unexpired withinTTL
  cases row.expiresAt <;> simp [and_assoc]

section Selection

variable
  {options : Options}
  {env : Env}
  {now : Int}
  {code : Bytes}
  {db : Database}

/-- A read finds the row with the code if it is visible. -/
theorem select_eq_some_iff (row : Row) :
    select options now code db = some row ↔
      row ∈ db.pastes.rows ∧ row.code = code ∧
        visible options now row = true := by
  constructor
  · intro selected
    have holds := List.find?_some selected
    rw [Bool.and_eq_true, beq_iff_eq] at holds
    exact ⟨List.mem_of_find?_eq_some selected, holds⟩
  · rintro ⟨present, rfl, isVisible⟩
    cases selected : select options now row.code db with
    | none =>
        have hidden := List.find?_eq_none.mp selected row present
        simp [isVisible] at hidden
    | some other =>
        have holds := List.find?_some selected
        rw [Bool.and_eq_true, beq_iff_eq] at holds
        rw [Pastes.eq_of_code_eq (List.mem_of_find?_eq_some selected) present
          holds.1]

theorem select_eq_none_iff :
    select options now code db = none ↔
      ∀ row ∈ db.pastes.rows, row.code = code →
        visible options now row = false := by
  rw [select, List.find?_eq_none]
  simp

/-- A read that does not fail answers from the visible row with the code. -/
theorem readRow_eq_of_visible
    {statement : Statement}
    {answer : Row → Except Error Value}
    (wellFormed : Id.valid code = true)
    (works : env.fails db statement = false)
    {row : Row}
    (present : row ∈ db.pastes.rows)
    (sameCode : row.code = code)
    (isVisible : visible options env.now row = true) :
    readRow options env statement answer code db = answer row := by
  have selected := (select_eq_some_iff row).mpr ⟨present, sameCode, isVisible⟩
  simp [readRow, wellFormed, works, selected]

/-- A successful read has found a visible row with the code. -/
theorem readRow_eq_ok
    {statement : Statement}
    {answer : Row → Except Error Value}
    {value : Value}
    (read : readRow options env statement answer code db = .ok value) :
    ∃ row ∈ db.pastes.rows, row.code = code ∧
      visible options env.now row = true ∧ answer row = .ok value := by
  unfold readRow at read
  split at read
  · cases read
  · split at read
    · cases read
    · cases selected : select options env.now code db with
      | none => simp [selected] at read
      | some row =>
          obtain ⟨present, sameCode, isVisible⟩ :=
            (select_eq_some_iff row).mp selected
          rw [selected] at read
          exact ⟨row, present, sameCode, isVisible, read⟩

/-- A read answers that there is no paste only for a malformed code, or when no
row with the code is visible. -/
theorem readRow_eq_notFound_iff
    {statement : Statement}
    {answer : Row → Except Error Value}
    (found : ∀ row, answer row ≠ .error .notFound) :
    readRow options env statement answer code db = .error .notFound ↔
      Id.valid code = false ∨
        env.fails db statement = false ∧ ∀ row ∈ db.pastes.rows,
          row.code = code → visible options env.now row = false := by
  rw [← select_eq_none_iff]
  unfold readRow
  by_cases malformed : Id.valid code = false
  · simp [malformed]
  · rw [if_neg malformed]
    by_cases fails : env.fails db statement = true
    · simp [fails, malformed]
    · rw [if_neg fails]
      cases selected : select options env.now code db with
      | none => simpa [malformed] using fails
      | some row => simpa [malformed] using found row

/-- What a successful `Get` has read. -/
theorem get_eq_ok
    {paste : Paste}
    {content : Bytes}
    (read : get options env code db = .ok (paste, content)) :
    ∃ row ∈ db.pastes.rows, row.code = code ∧
      visible options env.now row = true ∧
      paste = row.paste row.body.length ∧
      options.codec.decompress row.body row.codec row.rawBytes =
        .ok content := by
  obtain ⟨row, present, sameCode, isVisible, answered⟩ := readRow_eq_ok read
  split at answered
  · cases answered
  · rename_i decoded
    simp only [Except.ok.injEq, Prod.mk.injEq] at answered
    obtain ⟨rfl, rfl⟩ := answered
    exact ⟨row, present, sameCode, isVisible, rfl, decoded⟩

theorem get_eq_notFound_iff :
    get options env code db = .error .notFound ↔
      Id.valid code = false ∨
        env.fails db .readPaste = false ∧ ∀ row ∈ db.pastes.rows,
          row.code = code → visible options env.now row = false :=
  readRow_eq_notFound_iff fun row => by split <;> simp

/-- What a successful `Meta` has read. -/
theorem metadata_eq_ok
    {paste : Paste}
    (read : metadata options env code db = .ok paste) :
    ∃ row ∈ db.pastes.rows, row.code = code ∧
      visible options env.now row = true ∧ row.paste row.bytes = paste := by
  obtain ⟨row, present, sameCode, isVisible, answered⟩ := readRow_eq_ok read
  exact ⟨row, present, sameCode, isVisible, Except.ok.inj answered⟩

theorem metadata_eq_notFound_iff :
    metadata options env code db = .error .notFound ↔
      Id.valid code = false ∨
        env.fails db .readMetadata = false ∧ ∀ row ∈ db.pastes.rows,
          row.code = code → visible options env.now row = false :=
  readRow_eq_notFound_iff fun row => by simp

end Selection

end Store
end Haste
