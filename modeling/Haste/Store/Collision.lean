import Haste.Store.Allocation

/-!
# Codes of rows that outlive their settings

Rows keep their codes when a file is reopened with another key or minimum
length, while later numbers get their codes under the new settings.  As long as
every opening finds no row whose code the new settings give to a number still
to come, no `Create` meets its code in the table.  Lowering the minimum length
breaks this for every key: the failed insert rolls the counter back, and the
same `Create` fails for ever.
-/

namespace Haste
namespace Store

open Go
open Foundation

/-- No row has the code of a number that is still to come. -/
def Database.CodesFree (db : Database) (ids : Id.Generator) : Prop :=
  ∀ row ∈ db.pastes.rows, ∀ seq, db.pasteSeq < seq → seq < 2 ^ 63 →
    ids.code (UInt64.ofNat seq) ≠ .ok row.code

/-- Under the options of the store, a stored row takes the code of its own
number, which no later number has. -/
theorem Change.codesFree
    {options : Options}
    {db next : Database}
    (change : Change (some options) db next)
    (free : db.CodesFree options.ids) :
    next.CodesFree options.ids := by
  intro row present seq above fits issued
  rcases change.row_cases present with
    ⟨old, oldPresent, same, _⟩ | ⟨_, _, _, paste, isCurrent, created, rfl⟩
  · rw [same] at issued
    exact free old oldPresent seq (change.pasteSeq_le.trans_lt above) fits issued
  · cases isCurrent
    have allocated := created.allocated
    have sameNumber := congrArg UInt64.toNat
      (options.ids.code_injective allocated.issued issued)
    rw [toNat_ofNat_seq allocated.fits, toNat_ofNat_seq fits] at sameNumber
    have counter : next.pasteSeq = paste.seq := created.stores.pasteSeq
    omega

namespace System

/-- A file is opened only with options under which its codes are free. -/
def OpensFree : System → Op → Prop
  | .closed file _, .openFile options _ => file.content.CodesFree options.ids
  | _, _ => True

/-- The codes of an open store are free under its options. -/
def CodesFree : System → Prop
  | .closed _ _ => True
  | .opened store => store.db.CodesFree store.options.ids

theorem codesFree_step
    {system : System}
    (sound : system.Sound)
    (free : system.CodesFree)
    {op : Op}
    (opens : system.OpensFree op) :
    (system.step op).CodesFree := by
  have change := (step_spec sound op).2
  cases stepped : system.step op with
  | closed file last => trivial
  | opened store =>
      rw [stepped] at change
      rcases opened_cases sound stepped with
        ⟨before, rfl, same⟩ | ⟨file, last, stopped, rfl, rfl, same, _, _⟩
      · change store.db.CodesFree store.options.ids
        rw [same]
        exact change.codesFree free
      · intro row present seq above fits
        rw [same.1] at present
        rw [same.2] at above
        exact opens row present seq above fits

theorem codesFree_run
    {file : File}
    {last : Option Options}
    {ops : List Op}
    (opens : Runs.Each step OpensFree (.closed file last) ops) :
    ((System.closed file last).run ops).CodesFree := by
  have both := Runs.invariant_run
    (fun system : System => system.Sound ∧ system.CodesFree)
    (fun system op before admitted =>
      ⟨(step_spec before.1 op).1, codesFree_step before.1 before.2 admitted⟩)
    (show (System.closed file last).Sound ∧ (System.closed file last).CodesFree
      from ⟨trivial, trivial⟩) opens
  exact both.2

end System

/-! ## Keeping the key and the minimum length -/

/-- Every row has the code of its number under the key of the options and some
minimum length that is no larger. -/
def Database.IssuedUnder (db : Database) (options : Options) : Prop :=
  ∀ row ∈ db.pastes.rows, row.seq ≤ db.pasteSeq ∧
    ∃ issuer : Options, issuer.KeepsCodes options ∧
      ∃ counter, Allocated issuer.ids counter row.seq row.code

theorem Database.IssuedUnder.codesFree
    {db : Database}
    {options : Options}
    (issued : db.IssuedUnder options) :
    db.CodesFree options.ids := by
  intro row present seq above fits sameCode
  obtain ⟨counted, issuer, keeps, counter, allocated⟩ := issued row present
  exact allocated.code_ne_of_issued keeps fits (counted.trans_lt above) sameCode
    rfl

theorem Change.issuedUnder
    {options : Options}
    {db next : Database}
    (change : Change (some options) db next)
    (issued : db.IssuedUnder options) :
    next.IssuedUnder options := by
  intro row present
  rcases change.row_cases present with
    ⟨old, oldPresent, same, _⟩ | ⟨_, _, _, paste, isCurrent, created, rfl⟩
  · rw [same]
    obtain ⟨counted, issuer⟩ := issued old oldPresent
    exact ⟨counted.trans change.pasteSeq_le, issuer⟩
  · cases isCurrent
    exact ⟨created.stores.pasteSeq.ge, options, ⟨rfl, le_rfl⟩, _,
      created.allocated⟩

namespace System

/-- The rows of a file were issued under the options it was last open with, and
a file that was never open has none. -/
def Issued (system : System) : Prop :=
  match system.settings with
  | none => system.content.pastes.rows = []
  | some options => system.content.IssuedUnder options

theorem issued_step
    {system : System}
    (sound : system.Sound)
    (issued : system.Issued)
    {op : Op}
    (reopens : system.ReopensWith Options.KeepsCodes op) :
    (system.step op).Issued := by
  have change := (step_spec sound op).2
  unfold Issued at issued ⊢
  rcases settings_step sound op with
    same | ⟨file, last, options, stopped, rfl, rfl, isGiven⟩
  · rw [same]
    cases isCurrent : system.settings with
    | some options =>
        rw [isCurrent] at change issued
        exact change.issuedUnder issued
    | none =>
        rw [isCurrent] at change issued
        apply List.eq_nil_iff_forall_not_mem.mpr
        intro row present
        rcases change.row_cases present with
          ⟨old, oldPresent, _⟩ | ⟨_, _, _, _, noOptions, _⟩
        · rw [issued] at oldPresent
          cases oldPresent
        · cases noOptions
  · rw [isGiven]
    cases last with
    | none =>
        intro row present
        rcases change.row_cases present with
          ⟨old, oldPresent, _⟩ | ⟨_, _, _, _, noOptions, _⟩
        · rw [show (closed file none).content.pastes.rows = [] from issued]
            at oldPresent
          cases oldPresent
        · cases noOptions
    | some last =>
        intro row present
        obtain ⟨counted, issuer, keeps, allocated⟩ :=
          change.issuedUnder issued row present
        exact ⟨counted, issuer, keeps.trans _ _ _ reopens, allocated⟩

/-- Reopening with the key kept and the minimum length not lowered finds every
code free. -/
theorem opensFree_of_issued
    {system : System}
    (issued : system.Issued)
    {op : Op}
    (reopens : system.ReopensWith Options.KeepsCodes op) :
    system.OpensFree op := by
  cases system with
  | opened store => trivial
  | closed file last =>
      cases op with
      | openFile options stopped =>
          cases last with
          | none =>
              intro row present
              rw [show file.content.pastes.rows = [] from issued] at present
              cases present
          | some last =>
              apply Database.IssuedUnder.codesFree
              intro row present
              obtain ⟨counted, issuer, keeps, allocated⟩ := issued row present
              exact ⟨counted, issuer, keeps.trans _ _ _ reopens, allocated⟩
      | _ => trivial

theorem each_opensFree
    {system : System}
    (sound : system.Sound)
    (issued : system.Issued)
    {ops : List Op}
    (reopens : Runs.Each step (ReopensWith Options.KeepsCodes) system ops) :
    Runs.Each step OpensFree system ops := by
  induction ops generalizing system with
  | nil => trivial
  | cons op rest inductionHypothesis =>
      exact ⟨opensFree_of_issued issued reopens.1,
        inductionHypothesis (step_spec sound op).1
          (issued_step sound issued reopens.1) reopens.2⟩

end System

/-! ## No collision -/

/-- A `Create` fails on the code it derived only if a row that is left has the
code of the number it took. -/
theorem CreateRefused.row_of_duplicateCode
    {options : Options}
    {env : Env}
    {request : Request}
    {db : Database}
    (refused : CreateRefused options env request db
      (.statement .insertPaste .duplicateCode)) :
    ∃ row ∈ db.pastes.rows, ∃ seq,
      Allocated options.ids db.pasteSeq seq row.code := by
  generalize collision :
    (Error.statement .insertPaste .duplicateCode) = error at refused
  cases refused with
  | request error refused =>
      subst collision
      exact absurd (checkRequest_inRequest refused) id
  | admission refusal refused => cases refusal <;> cases collision
  | noRoom capped large => cases collision
  | failed error failed =>
      cases failed with
      | interrupted error interrupted =>
          obtain ⟨_, _, _, rfl⟩ := interrupted
          cases collision
      | duplicateCode row present seq allocated =>
          exact ⟨row, Database.mem_of_mem_discard present, seq, allocated⟩
      | _ => cases collision

/-- In every run whose openings find the codes of the file free under their
options, no `Create` fails because a row already has the code it derived. -/
theorem create_never_collides
    {file : File}
    {last : Option Options}
    {ops : List Op}
    (opens : Runs.Each System.step System.OpensFree (.closed file last) ops)
    {env : Env}
    {request : Request}
    {error : Error}
    (answered : ((System.closed file last).run ops).answer
      (.create env request) = .failed error) :
    error ≠ .statement .insertPaste .duplicateCode := by
  rintro rfl
  have sound := System.sound_run
    (System.sound_closed file last) ops
  have free := System.codesFree_run opens
  cases reached : (System.closed file last).run ops with
  | closed file last =>
      rw [reached] at answered
      cases answered
  | opened store =>
      rw [reached] at sound free answered
      have ended := System.outcome_of_answer sound answered
      generalize (System.opened store).step (.create env request) = next at ended
      cases ended with
      | refused _ _ _ refused =>
          obtain ⟨row, present, seq, allocated⟩ := refused.row_of_duplicateCode
          exact free row present seq allocated.above allocated.fits
            allocated.issued

/-- A reopened store whose next insert fails for another reason. -/
theorem create_never_collides_small :
    let ops : List Op :=
      [.openFile Options.small none, .create (.calm 0) Request.small,
        .shut, .openFile Options.small none]
    ∃ env error,
      ((System.closed .fresh none).run ops).answer
        (.create env Request.small) = .failed error ∧
      error ≠ .statement .insertPaste .duplicateCode := by
  intro ops
  have keeps : ∀ first second : Options,
      first = Options.small → second = Options.small →
        first.KeepsCodes second := by
    rintro _ _ rfl rfl
    exact ⟨rfl, le_rfl⟩
  have sound := System.sound_closed .fresh none
  have reopens := System.reopensWith_of_forall keeps sound
    (fun _ noOptions => by cases noOptions) (show ∀ options stopped,
      .openFile options stopped ∈ ops → options = Options.small by simp [ops])
  have failed : ((System.closed .fresh none).run ops).answer
      (.create { Env.calm 0 with fails := fun _ statement =>
        statement == .insertPaste } Request.small) =
      .failed (.statement .insertPaste .environment) := by
    decide +kernel
  exact ⟨_, _, failed,
    create_never_collides (System.each_opensFree sound rfl reopens) failed⟩

/-! ## Lowering the minimum length -/

/-- A `Create` without a cap that meets no failure stores the next number, or
fails because a row has its code, with the database unchanged. -/
theorem create_or_duplicate
    {options : Options}
    {env : Env}
    {request : Request}
    {db : Database}
    {title code : Bytes}
    (accounted : db.Accounted)
    (clean : env.Clean)
    (admitted : env.admission = none)
    (accepted : checkRequest options request = .ok title)
    (uncapped : options.maxBytes ≤ 0)
    (numbered : db.Numbered)
    (counted : db.pasteSeq + 1 < 2 ^ 63)
    (small : db.pastes.totalBytes +
      (options.codec.compress request.content).1.length < 2 ^ 63)
    (issued : options.ids.code (UInt64.ofNat (db.pasteSeq + 1)) = .ok code)
    (free : options.ids.isReserved code = false) :
    (∃ paste next, create options env request db = (.ok paste, next) ∧
      Created options env request db paste next ∧
      paste.seq = db.pasteSeq + 1 ∧ paste.code = code) ∨
    (create options env request db =
        (.error (.statement .insertPaste .duplicateCode), db) ∧
      ∃ row ∈ db.pastes.rows, row.code = code) := by
  have next : Allocated options.ids db.pasteSeq (db.pasteSeq + 1) code :=
    ⟨tried_succ counted, issued, free⟩
  have untouched := db.withRoom_of_uncapped uncapped
    (options.codec.compress request.content).1.length
  rcases create_cases options env request accounted with
    ⟨error, ended, refused⟩ | ⟨paste, after, ended, created⟩
  · apply Or.inr
    rcases refused.noRoom_or_failed admitted accepted with ⟨capped, _⟩ | failed
    · exact absurd capped (not_lt.mpr uncapped)
    · cases failed with
      | interrupted error interrupted =>
          exact absurd interrupted clean.not_interrupted
      | exhausted seq tried beyond =>
          obtain ⟨word, found⟩ := next.code_of_tried tried
          rw [found] at beyond
          cases beyond
      | counterFull full => exact absurd counted (not_lt.mpr full)
      | duplicateSeq row present seq found allocated same =>
          rw [untouched] at present
          have bound := numbered row present
          have above := allocated.above
          omega
      | duplicateCode row present seq allocated =>
          rw [untouched] at present
          exact ⟨ended, row, present, (allocated.unique next).2⟩
      | overflow unlimited beyond => exact absurd small (not_lt.mpr beyond)
  · exact Or.inl ⟨paste, after, ended, created, created.allocated.unique next⟩

/-- Options under a key and a minimum code length, for concrete runs. -/
def Options.keyed
    (mac : Bytes → Vector UInt8 32)
    (words : List Bytes)
    (minLen : Int) : Options :=
  { Options.small with ids := Id.newGenerator mac minLen words }

section Lowering

variable
  (mac : Bytes → Vector UInt8 32)
  (words : List Bytes)

/-- A code of two characters is none of the longer reserved words. -/
theorem not_reserved_of_length
    (long : ∀ word ∈ words, 3 ≤ (toLower word).length)
    {minLen : Int}
    {code : Bytes}
    (short : code.length = 2)
    (base62 : Id.IsBase62 code) :
    (Options.keyed mac words minLen).ids.isReserved code = false := by
  rw [← Bool.not_eq_true]
  intro reserved
  obtain ⟨word, listed, same⟩ := List.mem_map.mp
    (List.contains_iff_mem.mp reserved)
  have isAscii : ∀ byte ∈ code, byte < 0x80 := by
    have alphabetAscii : ∀ byte ∈ Id.alphabet, byte < 0x80 := by
      decide +kernel
    exact fun byte present => alphabetAscii byte (base62 byte present)
  have length := length_toLower_of_ascii isAscii
  have bound := long word listed
  rw [same] at bound
  omega

/-- Under a minimum length of two the first numbers have the codes of two
characters. -/
theorem code_keyed_two {seq : Nat} (few : seq < 62) :
    ∃ code, (Options.keyed mac words 2).ids.code (UInt64.ofNat (seq + 1)) =
        .ok code ∧
      (Options.keyed mac words 2).ids.placeCode 2 seq = some code ∧
      code.length = 2 ∧ Id.IsBase62 code := by
  have number := toNat_ofNat_seq (show seq + 1 < 2 ^ 63 by omega)
  refine (Options.keyed mac words 2).ids.exists_code_of_locate ?_ ?_
  · intro zero
    rw [zero, UInt64.toNat_zero] at number
    omega
  · rw [number, Nat.add_sub_cancel]
    exact Tiers.locate_cons_of_lt
      (show seq < 62 ^ 2 from few.trans (by decide))

/-- Under a minimum length of one the number 63 has the code that the number 1
has under a minimum length of two. -/
theorem code_keyed_one :
    ∃ code, (Options.keyed mac words 1).ids.code (UInt64.ofNat (62 + 1)) =
        .ok code ∧
      (Options.keyed mac words 2).ids.placeCode 2 0 = some code ∧
      code.length = 2 ∧ Id.IsBase62 code :=
  (Options.keyed mac words 1).ids.exists_code_of_locate (by decide)
    (show Tiers.locate Id.codesOf (Id.lengthsFrom 1) 62 = some (2, 0) from rfl)

/-- The database after some texts were stored under a minimum length of two. -/
structure Database.Filled
    (db : Database)
    (count : Nat) : Prop where
  accounted : db.Accounted
  counter : db.pasteSeq = count
  total : db.pastes.totalBytes = 10 * count
  numbered : db.Numbered
  free : db.CodesFree (Options.keyed mac words 2).ids
  first : 0 < count → ∃ row ∈ db.pastes.rows,
    (Options.keyed mac words 2).ids.placeCode 2 0 = some row.code

theorem accepted_small (minLen : Int) :
    checkRequest (Options.keyed mac words minLen) Request.small = .ok [] := by
  change checkRequest Options.small Request.small = .ok []
  decide

theorem size_small (minLen : Int) :
    ((Options.keyed mac words minLen).codec.compress
      Request.small.content).1.length = 10 := by
  change (Options.small.codec.compress (ascii "a")).1.length = 10
  decide

variable
  {mac words}
  {db : Database}
  {count : Nat}
  (long : ∀ word ∈ words, 3 ≤ (toLower word).length)
include long

/-- The next text is stored as well. -/
theorem Database.Filled.create
    (filled : Database.Filled mac words db count)
    (few : count < 62) :
    ∃ paste next, Store.create (Options.keyed mac words 2) (.calm 0)
        Request.small db = (.ok paste, next) ∧
      Database.Filled mac words next (count + 1) := by
  obtain ⟨code, issued, placed, short, base62⟩ :=
    code_keyed_two mac words few
  have size := size_small mac words 2
  have counter := filled.counter
  have total := filled.total
  rw [← counter] at issued
  rcases create_or_duplicate filled.accounted (Env.clean_calm 0) rfl
      (accepted_small mac words 2) le_rfl filled.numbered (by omega) (by omega) issued
      (not_reserved_of_length mac words long short base62)
    with ⟨paste, next, ended, created, sameSeq, sameCode⟩ | ⟨_, row, present, same⟩
  · have change : Change (some (Options.keyed mac words 2)) db next :=
      .stored _ rfl _ _ _ created
    have stores := created.stores
    rw [db.withRoom_of_uncapped
      (show (Options.keyed mac words 2).maxBytes ≤ 0 from le_rfl)] at stores
    have row : (paste.row ((Options.keyed mac words 2).codec.compress
        Request.small.content).1 ((Options.keyed mac words 2).codec.compress
        Request.small.content).2).bytes = 10 := size
    refine ⟨paste, next, ended, created.accounted filled.accounted, ?_, ?_,
      change.numbered filled.numbered, change.codesFree filled.free, fun _ => ?_⟩
    · exact stores.pasteSeq.trans (sameSeq.trans (congrArg (· + 1) counter))
    · rw [stores.totalBytes, row, total, Nat.mul_succ]
    · rcases Nat.eq_zero_or_pos count with rfl | some
      · refine ⟨_, stores.mem_rows, ?_⟩
        rw [placed]
        exact congrArg Option.some sameCode.symm
      · obtain ⟨row, present, isFirst⟩ := filled.first some
        refine ⟨row, ?_, isFirst⟩
        rw [stores.rows]
        exact List.mem_append_left _ present
  · rw [← same] at issued
    exact absurd issued
      (filled.free row present _ (Nat.lt_succ_self _) (by omega))

/-- After sixty-two texts a `Create` under a minimum length of one fails, and
leaves the database as it was. -/
theorem Database.Filled.create_lowered
    (filled : Database.Filled mac words db 62) :
    Store.create (Options.keyed mac words 1) (.calm 0) Request.small db =
      (.error (.statement .insertPaste .duplicateCode), db) := by
  obtain ⟨code, issued, placed, short, base62⟩ :=
    code_keyed_one mac words
  have size := size_small mac words 1
  have counter := filled.counter
  have total := filled.total
  rw [← counter] at issued
  rcases create_or_duplicate filled.accounted (Env.clean_calm 0) rfl
      (accepted_small mac words 1) le_rfl filled.numbered (by omega) (by omega) issued
      (not_reserved_of_length mac words long short base62)
    with ⟨paste, next, ended, created, sameSeq, sameCode⟩ | ⟨ended, _⟩
  · have stores := created.stores
    rw [db.withRoom_of_uncapped
      (show (Options.keyed mac words 1).maxBytes ≤ 0 from le_rfl)] at stores
    obtain ⟨row, present, isFirst⟩ := filled.first (by decide)
    rw [placed] at isFirst
    have taken := (stores.no_conflict present).2
    exact absurd ((Option.some.inj isFirst).symm.trans sameCode.symm) taken
  · exact ended

variable (mac) in
theorem exists_filled_run (count : Nat) (few : count ≤ 62) :
    ∃ db, (System.closed .fresh none).run
        (.openFile (Options.keyed mac words 2) none ::
          List.replicate count (.create (.calm 0) Request.small)) =
        .opened { System.openedFresh (Options.keyed mac words 2) with db } ∧
      Database.Filled mac words db count := by
  induction count with
  | zero =>
      refine ⟨_, System.run_openFresh _, (openFile_spec none .fresh).2 rfl, rfl,
        rfl, ?_, ?_, fun none => absurd none (Nat.lt_irrefl 0)⟩
      · exact fun row present => absurd present List.not_mem_nil
      · exact fun row present => absurd present List.not_mem_nil
  | succ count inductionHypothesis =>
      obtain ⟨db, reached, filled⟩ := inductionHypothesis (by omega)
      obtain ⟨paste, next, ended, nextFilled⟩ := filled.create long (by omega)
      refine ⟨next, ?_, nextFilled⟩
      rw [List.replicate_succ', ← List.cons_append, System.run_append, reached]
      simp only [System.openedFresh, System.run, Runs.run_cons, Runs.run_nil,
        System.step, System.perform, System.onStore, OpenStore.create, ended]

end Lowering

/-- No key keeps a `Create` from failing with a duplicate code on every retry:
after sixty-two texts under a minimum length of two, one under a minimum length
of one does, whatever the reserved words, as long as they have three
characters. -/
theorem create_fails_forever :
    ¬∃ mac words, (∀ word ∈ words, 3 ≤ (toLower word).length) ∧
      ∀ ops : List Op,
        (∀ options stopped, .openFile options stopped ∈ ops →
          ∃ minLen, options = Options.keyed mac words minLen) →
        ∃ retries, ((System.closed .fresh none).run
            (ops ++ List.replicate retries
              (.create (.calm 0) Request.small))).answer
            (.create (.calm 0) Request.small) ≠
          .failed (.statement .insertPaste .duplicateCode) := by
  rintro ⟨mac, words, long, succeeds⟩
  obtain ⟨db, reached, filled⟩ :=
    exists_filled_run mac long 62 le_rfl
  have ended := filled.create_lowered long
  obtain ⟨retries, differs⟩ := succeeds
    ((.openFile (Options.keyed mac words 2) none ::
      List.replicate 62 (.create (.calm 0) Request.small)) ++
      [.shut, .openFile (Options.keyed mac words 1) none]) (by
        simp only [List.cons_append, List.mem_cons, List.mem_append,
          List.mem_replicate]
        rintro options stopped (opens | ⟨_, opens⟩ | opens | opens | opens)
        · cases opens
          exact ⟨2, rfl⟩
        · cases opens
        · cases opens
        · cases opens
          exact ⟨1, rfl⟩
        · cases opens)
  apply differs
  have lowered : (System.closed .fresh none).run
      ((.openFile (Options.keyed mac words 2) none ::
        List.replicate 62 (.create (.calm 0) Request.small)) ++
        [.shut, .openFile (Options.keyed mac words 1) none]) =
      .opened { System.openedFresh (Options.keyed mac words 1) with db } := by
    rw [System.run_append, reached]
    simp only [System.run, Runs.run_cons, Runs.run_nil, System.step,
      System.perform, openStore, openFile_file filled.accounted,
      System.openedFresh, Database.content_file]
  have fixed : (System.opened
      { System.openedFresh (Options.keyed mac words 1) with db }).step
        (.create (.calm 0) Request.small) =
      .opened { System.openedFresh (Options.keyed mac words 1) with db } := by
    simp only [System.step, System.perform, System.onStore, OpenStore.create,
      System.openedFresh, ended]
  rw [System.run_append, lowered, System.run,
    Runs.run_replicate_of_fixed _ fixed]
  simp only [System.answer, System.perform, System.onStore, OpenStore.create,
    System.openedFresh, ended]

end Store
end Haste
