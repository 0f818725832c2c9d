import Haste.Id.Codes
import Haste.Store.Eviction

/-!
# Creating a paste

A request is checked, admitted and compressed before the transaction.  The
transaction makes room, takes the next sequence numbers until one has a code
that is no reserved word, inserts the row and counts its bytes.  `Created`
gathers what a successful call has done, and `CreateFailed` the ways in which
the transaction stops.
-/

namespace Haste
namespace Store

open Go
open Foundation
open Foundation.Transaction

/-- `Paste`: the metadata of a stored paste.  Instants are nanoseconds, and no
lifetime is `none`. -/
structure Paste where
  seq : Nat
  code : Bytes
  language : Bytes
  title : Bytes
  chars : Int
  rawBytes : Int
  storedSize : Int
  createdAt : Int
  expiresAt : Option Int
  deriving DecidableEq, Repr

/-- The arguments of `Create`. -/
structure Request where
  content : Bytes
  language : Bytes
  title : Bytes
  ttl : Int

/-- A request for the text `a`, for concrete runs. -/
def Request.small : Request := ⟨ascii "a", [], [], 0⟩

/-- `CleanTitle`. -/
def cleanTitle (title : Bytes) : Except Error Bytes :=
  let trimmed := trimSpace title
  if trimmed = [] then .ok []
  else if maxTitleChars < runeCount trimmed then
    .error (.titleTooLong (runeCount trimmed))
  else if (characters trimmed).any fun character =>
      isControl character.1 || isBidiControl character.1 then
    .error .titleControl
  else .ok trimmed

/-- The checks `Create` starts with, and the cleaned title. -/
def checkRequest (options : Options) (request : Request) : Except Error Bytes :=
  let chars := runeCount request.content
  if chars = 0 then .error .empty
  else if options.maxChars < chars then .error (.tooLarge chars options.maxChars)
  else match cleanTitle request.title with
    | .error error => .error error
    | .ok title =>
        if allowedTTL request.ttl then .ok title else .error .badTTL

/-- The errors that speak of the request alone. -/
def Error.InRequest : Error → Prop
  | .empty | .tooLarge _ _ | .titleTooLong _ | .titleControl | .badTTL => True
  | _ => False

theorem cleanTitle_inRequest
    {title : Bytes}
    {error : Error}
    (refused : cleanTitle title = .error error) :
    error.InRequest := by
  unfold cleanTitle at refused
  simp only at refused
  split at refused
  · cases refused
  · split at refused
    · cases refused
      trivial
    · split at refused
      · cases refused
        trivial
      · cases refused

theorem checkRequest_inRequest
    {options : Options}
    {request : Request}
    {error : Error}
    (refused : checkRequest options request = .error error) :
    error.InRequest := by
  unfold checkRequest at refused
  simp only at refused
  split at refused
  · cases refused
    trivial
  · split at refused
    · cases refused
      trivial
    · cases cleaned : cleanTitle request.title with
      | error titleError =>
          rw [cleaned] at refused
          cases refused
          exact cleanTitle_inRequest cleaned
      | ok title =>
          rw [cleaned] at refused
          simp only at refused
          split at refused
          · cases refused
          · cases refused
            trivial

/-- The paste before it has a sequence number and a code. -/
def draft
    (env : Env)
    (request : Request)
    (title body : Bytes) : Paste :=
  let now := truncateToSecond env.now
  { seq := 0
    code := []
    language := request.language
    title := title
    chars := runeCount request.content
    rawBytes := request.content.length
    storedSize := body.length
    createdAt := now
    expiresAt := if 0 < request.ttl then some (now + request.ttl) else none }

/-- The row that `Create` inserts. -/
def Paste.row (paste : Paste) (body : Bytes) (codec : Int) : Row where
  seq := paste.seq
  code := paste.code
  body := body
  codec := codec
  bytes := body.length
  chars := paste.chars
  rawBytes := paste.rawBytes
  language := paste.language
  title := paste.title
  createdAt := unix paste.createdAt
  accessedAt := unix paste.createdAt
  expiresAt := paste.expiresAt.map unix

/-- Make room for a new row, so that the cap holds on every write. -/
def makeRoom (options : Options) (env : Env) (size : Nat) : Tx Unit :=
  if 0 < options.maxBytes then do
    let stored ← storedBytes env
    if 0 < stored + size - options.maxBytes then do
      let _ ← evict env (stored + size - options.maxBytes)
      pure ()
    else pure ()
  else pure ()

/-- The next value of the counter `paste_seq`, a 63-bit number. -/
def nextSequence (env : Env) : Tx Nat := do
  execute env .allocateSequence
  let db ← get
  if 2 ^ 63 ≤ db.pasteSeq + 1 then
    throw (.statement .allocateSequence .integerOverflow)
  else do
    set { db with pasteSeq := db.pasteSeq + 1 }
    pure (db.pasteSeq + 1)

/-- The loop of `Create` that takes sequence numbers until the code does not
shadow a fixed route. -/
def allocate (ids : Id.Generator) (env : Env) : Nat → Tx (Nat × Bytes)
  | 0 => throw .diverged
  | fuel + 1 => do
      let seq ← nextSequence env
      match ids.code (UInt64.ofNat seq) with
      | .error error => throw (.id error)
      | .ok code =>
          if ids.isReserved code then allocate ids env fuel
          else pure (seq, code)

/-- The counter leaves the loop no more rounds than this. -/
def sequenceLimit : Nat := 2 ^ 63

/-- `INSERT INTO pastes`. -/
def insertPaste (env : Env) (row : Row) : Tx Unit := do
  execute env .insertPaste
  let db ← get
  match db.pastes.insert row with
  | .error .seq => throw (.statement .insertPaste .duplicateSeq)
  | .error .code => throw (.statement .insertPaste .duplicateCode)
  | .ok pastes => set { db with pastes }

/-- The transaction of `Create`. -/
def createTx
    (options : Options)
    (env : Env)
    (draft : Paste)
    (body : Bytes)
    (codec : Int) : Tx Paste := do
  execute env .beginWrite
  makeRoom options env body.length
  let allocated ← allocate options.ids env sequenceLimit
  let paste := { draft with seq := allocated.1, code := allocated.2 }
  insertPaste env (paste.row body codec)
  addStoredBytes env body.length
  execute env .commitPaste
  pure paste

/-- `Create`. -/
def create
    (options : Options)
    (env : Env)
    (request : Request)
    (db : Database) : Except Error Paste × Database :=
  match checkRequest options request with
  | .error error => (.error error, db)
  | .ok title =>
      match env.admission with
      | some refusal => (.error refusal.error, db)
      | none =>
          let compressed := options.codec.compress request.content
          let size := compressed.1.length
          if 0 < options.maxBytes ∧ options.maxBytes < size then
            (.error (.noRoom size options.maxBytes), db)
          else
            transact (createTx options env
              (draft env request title compressed.1)
              compressed.1 compressed.2) db

/-! ## What the transaction does -/

/-- The rows that make room for a new row of this size. -/
def Database.evicted (db : Database) (maxBytes : Int) (size : Nat) : List Row :=
  if 0 < maxBytes then
    db.pastes.lruPrefix (db.storedBytes + size - maxBytes).toNat
  else []

/-- The rows that make room are the first ones in least-recently-used order. -/
theorem Database.evicted_isPrefix
    (db : Database)
    (maxBytes : Int)
    (size : Nat) :
    db.evicted maxBytes size <+: db.pastes.lruOrder := by
  unfold evicted
  split
  · exact Cover.cover_prefix _ _ _
  · exact List.nil_prefix

/-- The database with that room made. -/
def Database.withRoom (db : Database) (maxBytes : Int) (size : Nat) : Database :=
  db.discard fun row => (db.evicted maxBytes size).contains row

/-- A sequence number after `counter` that the loop comes to, because every
number between them has a reserved code. -/
structure Tried (ids : Id.Generator) (counter seq : Nat) : Prop where
  above : counter < seq
  fits : seq < 2 ^ 63
  least : ∀ earlier, counter < earlier → earlier < seq →
    ∃ word, ids.code (UInt64.ofNat earlier) = .ok word ∧
      ids.isReserved word = true

/-- The sequence number after `counter` with the first code that is not
reserved. -/
structure Allocated
    (ids : Id.Generator)
    (counter seq : Nat)
    (code : Bytes) : Prop extends Tried ids counter seq where
  issued : ids.code (UInt64.ofNat seq) = .ok code
  free : ids.isReserved code = false

/-- The database with a new row, its number and its bytes. -/
structure Database.Stores (db : Database) (row : Row) (next : Database) : Prop where
  rows : next.pastes.rows = db.pastes.rows ++ [row]
  pasteSeq : next.pasteSeq = row.seq
  storedBytes : next.storedBytes = db.storedBytes + row.bytes

theorem Pastes.totalBytes_of_append
    {pastes next : Pastes}
    {row : Row}
    (rows : next.rows = pastes.rows ++ [row]) :
    next.totalBytes = pastes.totalBytes + row.bytes := by
  unfold Pastes.totalBytes
  rw [rows, Cover.total_append]
  rfl

theorem Database.Stores.totalBytes
    {db next : Database}
    {row : Row}
    (stores : db.Stores row next) :
    next.pastes.totalBytes = db.pastes.totalBytes + row.bytes :=
  Pastes.totalBytes_of_append stores.rows

theorem Database.Stores.mem_rows
    {db next : Database}
    {row : Row}
    (stores : db.Stores row next) :
    row ∈ next.pastes.rows := by
  rw [stores.rows]
  exact List.mem_append_right _ (List.mem_singleton_self _)

/-- How the transaction of `Create` stops: a statement fails, the code space is
exhausted, the new row conflicts with a row that is left, or a counter outgrows
its column. -/
inductive CreateFailed
    (options : Options)
    (env : Env)
    (db : Database)
    (size : Nat) : Error → Prop
  | interrupted (error : Error) (interrupted : error.InterruptedBy env) :
      CreateFailed options env db size error
  | exhausted
      (seq : Nat)
      (tried : Tried options.ids db.pasteSeq seq)
      (beyond : options.ids.code (UInt64.ofNat seq) = .error .exhausted) :
      CreateFailed options env db size (.id .exhausted)
  | counterFull
      (full : 2 ^ 63 ≤ db.pasteSeq + 1) :
      CreateFailed options env db size
        (.statement .allocateSequence .integerOverflow)
  | duplicateSeq
      (row : Row)
      (present : row ∈ (db.withRoom options.maxBytes size).pastes.rows)
      (seq : Nat)
      (code : Bytes)
      (allocated : Allocated options.ids db.pasteSeq seq code)
      (same : row.seq = seq) :
      CreateFailed options env db size
        (.statement .insertPaste .duplicateSeq)
  | duplicateCode
      (row : Row)
      (present : row ∈ (db.withRoom options.maxBytes size).pastes.rows)
      (seq : Nat)
      (allocated : Allocated options.ids db.pasteSeq seq row.code) :
      CreateFailed options env db size
        (.statement .insertPaste .duplicateCode)
  | overflow
      (unlimited : options.maxBytes ≤ 0)
      (beyond : 2 ^ 63 ≤ db.pastes.totalBytes + size) :
      CreateFailed options env db size
        (.statement (.updateStoredBytes size) .integerOverflow)

/-- A need of nothing evicts nothing. -/
theorem Database.discard_lruPrefix_zero (db : Database) :
    (db.discard fun row => (db.pastes.lruPrefix 0).contains row) = db :=
  Database.discard_eq_self fun row _ => by simp [Pastes.lruPrefix]

/-- Without a cap no room is made. -/
theorem Database.withRoom_of_uncapped
    (db : Database)
    {maxBytes : Int}
    (uncapped : maxBytes ≤ 0)
    (size : Nat) :
    db.withRoom maxBytes size = db := by
  rw [Database.withRoom, Database.evicted, if_neg (not_lt.mpr uncapped)]
  exact Database.discard_eq_self fun row _ => by simp

theorem Database.Accounted.withRoom
    {db : Database}
    (accounted : db.Accounted)
    (maxBytes : Int)
    (size : Nat) :
    (db.withRoom maxBytes size).Accounted :=
  accounted.discard _

/-- A row that fits within the cap fits once room is made for it. -/
theorem Database.Accounted.withRoom_fits
    {db : Database}
    (accounted : db.Accounted)
    {maxBytes : Int}
    {size : Nat}
    (capped : 0 < maxBytes)
    (fits : size ≤ maxBytes) :
    ((db.withRoom maxBytes size).pastes.totalBytes : Int) + size ≤ maxBytes := by
  have stored := accounted.stored
  have listed := Pastes.filter_contains_perm
    (db.pastes.lruPrefix_nodup (db.storedBytes + size - maxBytes).toNat)
    fun row covered => Pastes.mem_of_mem_lruPrefix covered
  have split := db.pastes.totalBytes_delete fun row =>
    (db.pastes.lruPrefix (db.storedBytes + size - maxBytes).toNat).contains row
  rw [Cover.total_perm _ listed] at split
  simp only [Database.withRoom, Database.evicted, if_pos capped,
    Database.discard]
  rcases Cover.cover_meets_or_all Row.bytes db.pastes.lruOrder
      (db.storedBytes + size - maxBytes).toNat with meets | all
  · change _ ≤ Cover.total Row.bytes (db.pastes.lruPrefix _) at meets
    omega
  · have everything : Cover.total Row.bytes (db.pastes.lruPrefix
        (db.storedBytes + size - maxBytes).toNat) = db.pastes.totalBytes := by
      rw [Pastes.lruPrefix, all, Pastes.total_lruOrder]
    omega

section Steps

variable
  {options : Options}
  {env : Env}
  {db : Database}
  {raises : Error → Prop}

theorem ends_makeRoom
    {size : Nat}
    {returns : Unit → Database → Prop}
    (accounted : db.Accounted)
    (done : returns () (db.withRoom options.maxBytes size))
    (interrupted : ∀ error, error.InterruptedBy env → raises error) :
    Ends (makeRoom options env size) db returns raises := by
  unfold Database.withRoom Database.evicted at done
  unfold makeRoom
  rw [ends_ite]
  constructor
  · intro capped
    simp only [if_pos capped] at done
    rw [ends_bind]
    refine ends_storedBytes ?_ interrupted
    rw [ends_ite]
    constructor
    · intro _
      rw [ends_bind]
      exact ends_evict accounted done interrupted
    · intro noNeed
      rw [ends_pure]
      rwa [Int.toNat_eq_zero.mpr (not_lt.mp noNeed),
        Database.discard_lruPrefix_zero] at done
  · intro uncapped
    simp only [if_neg uncapped] at done
    rw [ends_pure]
    rwa [Database.discard_eq_self fun row _ => by simp] at done

/-- A sequence number is read back from the word it is passed in. -/
theorem toNat_ofNat_seq {seq : Nat} (fits : seq < 2 ^ 63) :
    (UInt64.ofNat seq).toNat = seq :=
  UInt64.toNat_ofNat_of_lt' (fits.trans (by decide))

theorem tried_succ
    {ids : Id.Generator}
    {counter : Nat}
    (fits : counter + 1 < 2 ^ 63) :
    Tried ids counter (counter + 1) where
  above := Nat.lt_succ_self _
  fits := fits
  least := fun earlier after before => by omega

/-- The loop goes on past a reserved code. -/
theorem Tried.past_reserved
    {ids : Id.Generator}
    {counter seq : Nat}
    {word : Bytes}
    (tried : Tried ids (counter + 1) seq)
    (issued : ids.code (UInt64.ofNat (counter + 1)) = .ok word)
    (reserved : ids.isReserved word = true) :
    Tried ids counter seq where
  above := Nat.lt_of_succ_lt tried.above
  fits := tried.fits
  least := by
    intro earlier after before
    rcases Nat.lt_or_ge (counter + 1) earlier with later | same
    · exact tried.least earlier later before
    · obtain rfl : earlier = counter + 1 := by omega
      exact ⟨word, issued, reserved⟩

/-- The allocation loop ends with the first free code, or at the end of the
code space. -/
theorem ends_allocate
    {ids : Id.Generator}
    {fuel : Nat}
    {returns : Nat × Bytes → Database → Prop}
    (rounds : 2 ^ 63 ≤ db.pasteSeq + fuel)
    (someRound : 0 < fuel)
    (done : ∀ seq code, Allocated ids db.pasteSeq seq code →
      returns (seq, code) { db with pasteSeq := seq })
    (interrupted : ∀ error, error.InterruptedBy env → raises error)
    (exhausted : ∀ seq, Tried ids db.pasteSeq seq →
      ids.code (UInt64.ofNat seq) = .error .exhausted →
      raises (.id .exhausted))
    (full : 2 ^ 63 ≤ db.pasteSeq + 1 →
      raises (.statement .allocateSequence .integerOverflow)) :
    Ends (allocate ids env fuel) db returns raises := by
  induction fuel generalizing db with
  | zero => exact absurd someRound (Nat.lt_irrefl _)
  | succ fuel inductionHypothesis =>
      unfold allocate nextSequence
      simp only [ends_bind]
      refine ends_execute ?_ interrupted
      simp only [ends_get, ends_ite, ends_throw, ends_bind, ends_set, ends_pure]
      refine ⟨full, fun counted => ?_⟩
      rw [not_le] at counted
      have number := toNat_ofNat_seq counted
      have nonzero : UInt64.ofNat (db.pasteSeq + 1) ≠ 0 := by
        intro zero
        rw [zero, UInt64.toNat_zero] at number
        omega
      cases issued : ids.code (UInt64.ofNat (db.pasteSeq + 1)) with
      | error error =>
          rcases ids.code_ok_or_exhausted nonzero with ⟨code, isOk⟩ | isExhausted
          · rw [isOk] at issued
            exact absurd issued (by simp)
          · rw [isExhausted] at issued
            cases issued
            exact exhausted _ (tried_succ counted) isExhausted
      | ok code =>
          simp only [ends_ite, ends_pure]
          constructor
          · intro reserved
            have within := ((ids.exists_code_iff _).mp ⟨code, issued⟩).2
            have few := Id.codeCount_lt ids.minLen_pos ids.minLen_le
            rw [number] at within
            refine inductionHypothesis (by simp only; omega) (by omega) ?_ ?_
              fun beyond => absurd beyond (by simp only; omega)
            · intro seq free allocated
              exact done seq free { allocated with
                toTried := allocated.toTried.past_reserved issued reserved }
            · intro seq tried isExhausted
              exact exhausted seq (tried.past_reserved issued reserved)
                isExhausted
          · intro free
            exact done _ _ {
              toTried := tried_succ counted
              issued
              free := Bool.eq_false_iff.mpr free }

/-- An insert appends the row, or names a row it conflicts with. -/
theorem ends_insertPaste
    {row : Row}
    {returns : Unit → Database → Prop}
    (done : ∀ pastes : Pastes, pastes.rows = db.pastes.rows ++ [row] →
      returns () { db with pastes })
    (interrupted : ∀ error, error.InterruptedBy env → raises error)
    (sameSeq : ∀ other ∈ db.pastes.rows, other.seq = row.seq →
      raises (.statement .insertPaste .duplicateSeq))
    (sameCode : ∀ other ∈ db.pastes.rows, other.code = row.code →
      raises (.statement .insertPaste .duplicateCode)) :
    Ends (insertPaste env row) db returns raises := by
  unfold insertPaste
  rw [ends_bind]
  refine ends_execute ?_ interrupted
  rw [ends_bind, ends_get]
  unfold Pastes.insert
  by_cases takenSeq : row.seq ∈ db.pastes.rows.map Row.seq
  · obtain ⟨other, present, same⟩ := List.mem_map.mp takenSeq
    simp only [takenSeq, ↓reduceDIte]
    exact sameSeq other present same
  · by_cases takenCode : row.code ∈ db.pastes.rows.map Row.code
    · obtain ⟨other, present, same⟩ := List.mem_map.mp takenCode
      simp only [takenSeq, takenCode, ↓reduceDIte]
      exact sameCode other present same
    · simp only [takenSeq, takenCode, ↓reduceDIte]
      exact done _ rfl

/-- The transaction of `Create` makes room and stores one row under the
allocated number and code, or fails in one of the listed ways. -/
theorem ends_createTx
    {draft : Paste}
    {body : Bytes}
    {codec : Int}
    {returns : Paste → Database → Prop}
    (accounted : db.Accounted)
    (fits : 0 < options.maxBytes → (body.length : Int) ≤ options.maxBytes)
    (done : ∀ seq code next,
      Allocated options.ids db.pasteSeq seq code →
      (db.withRoom options.maxBytes body.length).Stores
        (Paste.row { draft with seq, code } body codec) next →
      next.pastes.totalBytes < 2 ^ 63 →
      returns { draft with seq, code } next)
    (failed : ∀ error, CreateFailed options env db body.length error →
      raises error) :
    Ends (createTx options env draft body codec) db returns raises := by
  have interrupted : ∀ error : Error, error.InterruptedBy env → raises error :=
    fun error stopped => failed error (.interrupted error stopped)
  have roomAccounted := accounted.withRoom options.maxBytes body.length
  have stored := roomAccounted.stored
  have roomTotal : (db.withRoom options.maxBytes body.length).pastes.totalBytes ≤
      db.pastes.totalBytes := by
    have split := db.pastes.totalBytes_delete fun row =>
      (db.evicted options.maxBytes body.length).contains row
    exact le_of_le_of_eq (Nat.le_add_left _ _) split
  unfold createTx
  rw [ends_bind]
  refine ends_execute ?_ interrupted
  rw [ends_bind]
  refine ends_makeRoom accounted ?_ interrupted
  rw [ends_bind]
  refine ends_allocate (Nat.le_add_left _ _) (by decide) ?_ interrupted
    (fun seq tried beyond => failed _ (.exhausted seq tried beyond))
    fun full => failed _ (.counterFull full)
  intro seq code allocated
  rw [ends_bind]
  refine ends_insertPaste ?_ interrupted ?_ ?_
  · intro pastes rows
    have total : pastes.totalBytes =
        (db.withRoom options.maxBytes body.length).pastes.totalBytes +
          body.length := Pastes.totalBytes_of_append rows
    rw [ends_bind]
    unfold addStoredBytes
    rw [ends_bind]
    refine ends_execute ?_ interrupted
    simp only [ends_bind, ends_get, ends_ite, ends_throw, ends_set, ends_pure]
    constructor
    · intro beyond
      refine failed _ (.overflow ?_ ?_)
      · by_contra capped
        have within := accounted.withRoom_fits (not_le.mp capped)
          (fits (not_le.mp capped))
        have wide := options.maxBytes_lt
        omega
      · omega
    · intro inRange
      refine ends_execute ?_ interrupted
      refine done seq code _ allocated ⟨rows, rfl, ?_⟩ ?_
      · simp only
        rw [max_eq_right (by omega)]
        rfl
      · simp only
        omega
  · intro other present same
    exact failed _ (.duplicateSeq other present seq code allocated same)
  · intro other present same
    obtain rfl : other.code = code := same
    exact failed _ (.duplicateCode other present seq allocated)

end Steps

/-! ## What a call does -/

/-- What a successful `Create` has done. -/
structure Created
    (options : Options)
    (env : Env)
    (request : Request)
    (db : Database)
    (paste : Paste)
    (next : Database) : Prop where
  accepted : checkRequest options request = .ok paste.title
  metadata : paste =
    { draft env request paste.title
        (options.codec.compress request.content).1 with
      seq := paste.seq
      code := paste.code }
  fits : 0 < options.maxBytes →
    ((options.codec.compress request.content).1.length : Int) ≤
      options.maxBytes
  allocated : Allocated options.ids db.pasteSeq paste.seq paste.code
  stores : (db.withRoom options.maxBytes
      (options.codec.compress request.content).1.length).Stores
    (paste.row (options.codec.compress request.content).1
      (options.codec.compress request.content).2) next
  inRange : next.pastes.totalBytes < 2 ^ 63

/-- Why `Create` answers an error. -/
inductive CreateRefused
    (options : Options)
    (env : Env)
    (request : Request)
    (db : Database) : Error → Prop
  | request
      (error : Error)
      (refused : checkRequest options request = .error error) :
      CreateRefused options env request db error
  | admission
      (refusal : Refusal)
      (refused : env.admission = some refusal) :
      CreateRefused options env request db refusal.error
  | noRoom
      (capped : 0 < options.maxBytes)
      (large : options.maxBytes <
        (options.codec.compress request.content).1.length) :
      CreateRefused options env request db
        (.noRoom (options.codec.compress request.content).1.length
          options.maxBytes)
  | failed
      (error : Error)
      (failed : CreateFailed options env db
        (options.codec.compress request.content).1.length error) :
      CreateRefused options env request db error

/-- `Create` either answers an error and leaves the database as it was, or has
stored the paste it returns. -/
theorem create_cases
    (options : Options)
    (env : Env)
    (request : Request)
    {db : Database}
    (accounted : db.Accounted) :
    (∃ error, create options env request db = (.error error, db) ∧
      CreateRefused options env request db error) ∨
    (∃ paste next, create options env request db = (.ok paste, next) ∧
      Created options env request db paste next) := by
  unfold create
  cases checked : checkRequest options request with
  | error error => exact Or.inl ⟨error, rfl, .request error checked⟩
  | ok title =>
      cases admitted : env.admission with
      | some refusal => exact Or.inl ⟨_, rfl, .admission refusal admitted⟩
      | none =>
          simp only
          split
          · rename_i large
            exact Or.inl ⟨_, rfl, .noRoom large.1 large.2⟩
          · rename_i small
            have fits : 0 < options.maxBytes →
                ((options.codec.compress request.content).1.length : Int) ≤
                  options.maxBytes := by
              intro capped
              exact not_lt.mp fun large => small ⟨capped, large⟩
            refine transact_of_ends (fun answer next =>
              (∃ error, (answer, next) = (.error error, db) ∧
                CreateRefused options env request db error) ∨
              (∃ paste after, (answer, next) = (.ok paste, after) ∧
                Created options env request db paste after)) ?_
            refine ends_createTx accounted fits ?_ ?_
            · intro seq code next allocated stores inRange
              exact Or.inr ⟨_, next, rfl,
                ⟨checked, rfl, fits, allocated, stores, inRange⟩⟩
            · intro error failed
              exact Or.inl ⟨error, rfl, .failed error failed⟩

/-! ## When a call succeeds -/

/-- A `Create` that succeeds was admitted. -/
theorem admission_of_create_ok
    {options : Options}
    {env : Env}
    {request : Request}
    {db next : Database}
    {paste : Paste}
    (stored : create options env request db = (.ok paste, next)) :
    env.admission = none := by
  unfold create at stored
  cases checked : checkRequest options request with
  | error error =>
      rw [checked] at stored
      cases stored
  | ok title =>
      cases admitted : env.admission with
      | none => rfl
      | some refusal =>
          rw [checked, admitted] at stored
          cases stored

theorem created_of_create_ok
    {options : Options}
    {env : Env}
    {request : Request}
    {db next : Database}
    {paste : Paste}
    (accounted : db.Accounted)
    (stored : create options env request db = (.ok paste, next)) :
    Created options env request db paste next := by
  rcases create_cases options env request accounted with
    ⟨error, ended, _⟩ | ⟨_, _, ended, created⟩
  · rw [stored] at ended
    cases ended
  · rw [stored] at ended
    cases ended
    exact created

/-- The loop does not go past the number it allocates. -/
theorem Tried.le_allocated
    {ids : Id.Generator}
    {counter seq seq' : Nat}
    {code : Bytes}
    (tried : Tried ids counter seq)
    (allocated : Allocated ids counter seq' code) :
    seq ≤ seq' := by
  by_contra beyond
  obtain ⟨word, issued, reserved⟩ :=
    tried.least seq' allocated.above (not_le.mp beyond)
  rw [allocated.issued] at issued
  cases issued
  rw [allocated.free] at reserved
  cases reserved

/-- The loop allocates one number and one code. -/
theorem Allocated.unique
    {ids : Id.Generator}
    {counter seq seq' : Nat}
    {code code' : Bytes}
    (first : Allocated ids counter seq code)
    (second : Allocated ids counter seq' code') :
    seq = seq' ∧ code = code' := by
  obtain rfl : seq = seq' := le_antisymm
    (first.toTried.le_allocated second) (second.toTried.le_allocated first)
  have issued := second.issued
  rw [first.issued] at issued
  exact ⟨rfl, Except.ok.inj issued⟩

/-- The code space is not exhausted where the loop allocates a number. -/
theorem Allocated.code_of_tried
    {ids : Id.Generator}
    {counter seq seq' : Nat}
    {code : Bytes}
    (allocated : Allocated ids counter seq' code)
    (tried : Tried ids counter seq) :
    ∃ word, ids.code (UInt64.ofNat seq) = .ok word := by
  rcases Nat.lt_or_eq_of_le (tried.le_allocated allocated) with earlier | rfl
  · obtain ⟨word, issued, _⟩ := allocated.least seq tried.above earlier
    exact ⟨word, issued⟩
  · exact ⟨code, allocated.issued⟩

/-- A row that is stored conflicts with no row that was left. -/
theorem Database.Stores.no_conflict
    {db next : Database}
    {row : Row}
    (stores : db.Stores row next)
    {other : Row}
    (present : other ∈ db.pastes.rows) :
    other.seq ≠ row.seq ∧ other.code ≠ row.code := by
  have seqs := next.pastes.seqs_nodup
  have codes := next.pastes.codes_nodup
  rw [stores.rows, List.map_append, List.nodup_append] at seqs codes
  exact ⟨seqs.2.2 _ (List.mem_map_of_mem present) _ (List.mem_singleton_self _),
    codes.2.2 _ (List.mem_map_of_mem present) _ (List.mem_singleton_self _)⟩

/-- A request that is acceptable and admitted can only lack room or fail in its
transaction. -/
theorem CreateRefused.noRoom_or_failed
    {options : Options}
    {env : Env}
    {request : Request}
    {db : Database}
    {title : Bytes}
    {error : Error}
    (refused : CreateRefused options env request db error)
    (admitted : env.admission = none)
    (accepted : checkRequest options request = .ok title) :
    (0 < options.maxBytes ∧
      options.maxBytes < (options.codec.compress request.content).1.length) ∨
      CreateFailed options env db
        (options.codec.compress request.content).1.length error := by
  cases refused with
  | request error refused =>
      rw [accepted] at refused
      cases refused
  | admission refusal refused =>
      rw [admitted] at refused
      cases refused
  | noRoom capped large => exact Or.inl ⟨capped, large⟩
  | failed error failed => exact Or.inr failed

/-- Whether a `Create` that meets no failure succeeds depends on the content and
the database: where one paste was stored, any acceptable request with the same
content would have been. -/
theorem Created.create_again
    {options : Options}
    {env env' : Env}
    {request request' : Request}
    {db next : Database}
    {paste : Paste}
    {title : Bytes}
    (created : Created options env request db paste next)
    (accounted : db.Accounted)
    (clean : env'.Clean)
    (admitted : env'.admission = none)
    (sameContent : request'.content = request.content)
    (accepted : checkRequest options request' = .ok title) :
    ∃ paste' next', create options env' request' db = (.ok paste', next') ∧
      Created options env' request' db paste' next' := by
  rcases create_cases options env' request' accounted with
    ⟨error, _, refused⟩ | succeeded
  · exfalso
    rcases refused.noRoom_or_failed admitted accepted with ⟨capped, large⟩ | failed
    · rw [sameContent] at large
      exact absurd (created.fits capped) (not_le.mpr large)
    · rw [sameContent] at failed
      cases failed with
      | interrupted error interrupted => exact clean.not_interrupted interrupted
      | exhausted seq tried beyond =>
          obtain ⟨word, issued⟩ := created.allocated.code_of_tried tried
          rw [issued] at beyond
          cases beyond
      | counterFull full =>
          have above := created.allocated.above
          have fits := created.allocated.fits
          omega
      | duplicateSeq row present seq code allocated same =>
          obtain ⟨rfl, _⟩ := created.allocated.unique allocated
          exact (created.stores.no_conflict present).1 same
      | duplicateCode row present seq allocated =>
          exact (created.stores.no_conflict present).2
            (created.allocated.unique allocated).2.symm
      | overflow unlimited beyond =>
          have total := created.inRange
          rw [created.stores.totalBytes, db.withRoom_of_uncapped unlimited]
            at total
          exact absurd total (not_lt.mpr beyond)
  · exact succeeded

end Store
end Haste
