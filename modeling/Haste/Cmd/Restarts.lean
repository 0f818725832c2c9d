import Haste.Config.Secret
import Haste.HttpApi.Create
import Haste.Store.Durability
import Haste.Store.Numbering

/-!
# One data directory over many starts

A start checks the settings, loads the key of the share codes and opens the
database; it may stop anywhere on the way, and the process may die at any time
later.  The key is lost or changed at any time from outside.  What the starts do
to the codes depends on the key; what happens to the pastes does not.
-/

namespace Haste
namespace Cmd

open Go
open Foundation

/-- The libraries the process is built with: the keyed hash, zstd, and how `%q`
writes a string. -/
structure Libraries where
  hmac : Bytes → Bytes → Vector UInt8 32
  zstd : Compress.Gozstd
  quoted : Bytes → Bytes

variable (libraries : Libraries)

/-- The generator `run` makes. -/
def generator (codeMinLen : Int64) (key : Bytes) : Id.Generator :=
  Id.newGenerator (libraries.hmac key) codeMinLen.toInt HttpApi.reservedCodes

/-- The options `run` opens the store with. -/
def storeOptions (settings : Config.Settings) (key : Bytes) : Store.Options where
  maxChars := settings.maxChars.toInt
  maxBytes := settings.maxBytes.toInt
  ttlAccess := settings.ttlAccess.toInt
  ttlCreate := settings.ttlCreate.toInt
  codec := { zstd := libraries.zstd, level := settings.zstdLevel.toInt }
  ids := generator libraries settings.codeMinLen key
  maxBytes_lt := settings.maxBytes.toInt_lt

/-- The data directory, with the process that has its database open, if one
runs. -/
structure Directory where
  secretFile : Option Bytes
  system : Store.System

/-- What happens to the directory. -/
inductive Event
  /-- The process starts, if none runs; `Open` may stop. -/
  | start
    (settings : Config.Settings)
    (calls : Config.SecretCalls)
    (stopped : Option Nat)
  /-- A step of the store of the running process, or its end. -/
  | step
    (op : Store.Op)
    (running : ∀ options stopped, op ≠ .openFile options stopped)
  /-- Something else writes or removes the file of the key. -/
  | edit (file : Option Bytes)

namespace Directory

/-- The steps an event makes the store take. -/
def ops (directory : Directory) : Event → List Store.Op
  | .start settings calls stopped =>
      match directory.system with
      | .opened _ => []
      | .closed _ _ =>
          match (Config.load libraries.quoted settings calls directory.secretFile).1 with
          | .ok key => [.openFile (storeOptions libraries settings key) stopped]
          | .error _ => []
  | .step op _ => [op]
  | .edit _ => []

/-- One event. -/
def step (directory : Directory) (event : Event) : Directory where
  secretFile :=
    match event, directory.system with
    | .start settings calls _, .closed _ _ =>
        (Config.load libraries.quoted settings calls directory.secretFile).2
    | .edit file, _ => file
    | _, _ => directory.secretFile
  system := directory.system.run (directory.ops libraries event)

/-- The directory after a run. -/
abbrev run (directory : Directory) (events : List Event) : Directory :=
  Runs.run (step libraries) directory events

/-- The steps of the store along a run. -/
abbrev storeOps (directory : Directory) (events : List Event) : List Store.Op :=
  Runs.behind (step libraries) (ops libraries) directory events

variable {libraries}

theorem system_run (directory : Directory) (events : List Event) :
    (directory.run libraries events).system =
      directory.system.run (directory.storeOps libraries events) := by
  have moves : ∀ (directory : Directory) (event : Event), True →
      (directory.step libraries event).system =
        directory.system.run (directory.ops libraries event) :=
    fun _ _ _ => rfl
  exact Runs.part_run moves (Runs.each_of_forall fun _ _ => trivial)

theorem storeOps_cons (directory : Directory) (event : Event) (rest : List Event) :
    directory.storeOps libraries (event :: rest) =
      directory.ops libraries event ++
        (directory.step libraries event).storeOps libraries rest := rfl

/-- Only a start on a closed file opens it, with the key it has loaded. -/
theorem start_of_opening
    {directory : Directory}
    {event : Event}
    {options : Store.Options}
    {stopped : Option Nat}
    (opening : .openFile options stopped ∈ directory.ops libraries event) :
    ∃ settings calls key, event = .start settings calls stopped ∧
      (Config.load libraries.quoted settings calls directory.secretFile).1 = .ok key ∧
      (directory.step libraries event).secretFile =
        (Config.load libraries.quoted settings calls directory.secretFile).2 ∧
      options = storeOptions libraries settings key := by
  cases event with
  | start settings calls stops =>
      unfold ops at opening
      cases isSystem : directory.system with
      | opened store =>
          rw [isSystem] at opening
          cases opening
      | closed file last =>
          rw [isSystem] at opening
          simp only at opening
          cases loaded : (Config.load libraries.quoted settings calls
              directory.secretFile).1 with
          | error message =>
              rw [loaded] at opening
              cases opening
          | ok key =>
              rw [loaded] at opening
              simp only [List.mem_singleton, Store.Op.openFile.injEq] at opening
              obtain ⟨rfl, rfl⟩ := opening
              refine ⟨settings, calls, key, rfl, loaded, ?_, rfl⟩
              simp only [step, isSystem]
  | step op running =>
      exact absurd (List.mem_singleton.mp opening).symm (running _ _)
  | edit file => cases opening

end Directory

/-! ## While the key is kept -/

/-- No variable is set, the file of the key is read if it is there and is changed
by nothing else, and the minimum length stays. -/
def Event.Undisturbed (codeMinLen : Int64) : Event → Prop
  | .start settings calls _ =>
      settings.codeMinLen = codeMinLen ∧ calls.environment = [] ∧
        calls.readFails = false
  | .step _ _ => True
  | .edit _ => False

/-- Whatever is opened has the codes of this key. -/
def KeyedBy
    (codeMinLen : Int64)
    (key : Bytes)
    (ops : List Store.Op) : Prop :=
  ∀ options stopped, .openFile options stopped ∈ ops →
    options.ids = generator libraries codeMinLen key

namespace Directory

/-- A start of the run that found no key left this one, a head of what it had
drawn. -/
def HasDrawn (directory : Directory) (events : List Event) (key : Bytes) : Prop :=
  ∃ earlier settings calls stopped rest,
    events = earlier ++ .start settings calls stopped :: rest ∧
    (∀ other, ¬Config.HoldsKey (directory.run libraries earlier).secretFile other) ∧
    calls.Draws key ∧
    (directory.run libraries
      (earlier ++ [.start settings calls stopped])).secretFile = some key

variable {libraries} in
theorem HasDrawn.append
    {directory : Directory}
    {events : List Event}
    {key : Bytes}
    (drawn : directory.HasDrawn libraries events key)
    (more : List Event) :
    directory.HasDrawn libraries (events ++ more) key := by
  obtain ⟨earlier, settings, calls, stopped, rest, rfl, facts⟩ := drawn
  exact ⟨earlier, settings, calls, stopped, rest ++ more, by simp, facts⟩

variable {libraries} in
theorem HasDrawn.cons
    {directory : Directory}
    {event : Event}
    {events : List Event}
    {key : Bytes}
    (drawn : (directory.step libraries event).HasDrawn libraries events key) :
    directory.HasDrawn libraries (event :: events) key := by
  obtain ⟨earlier, settings, calls, stopped, rest, rfl, facts⟩ := drawn
  exact ⟨event :: earlier, settings, calls, stopped, rest, rfl, facts⟩

variable {codeMinLen : Int64}

variable {libraries} in
/-- A start that loads a key leaves it in the file and opens with it. -/
theorem opening_step
    {directory : Directory}
    {event : Event}
    (undisturbed : event.Undisturbed codeMinLen)
    {options : Store.Options}
    {stopped : Option Nat}
    (opening : .openFile options stopped ∈ directory.ops libraries event) :
    ∃ key, Config.HoldsKey (directory.step libraries event).secretFile key ∧
      options.ids = generator libraries codeMinLen key := by
  obtain ⟨settings, calls, key, rfl, loaded, isFile, rfl⟩ :=
    start_of_opening opening
  obtain ⟨rfl, unset, -⟩ := undisturbed
  refine ⟨key, ?_, rfl⟩
  rw [isFile]
  exact (Config.loads_load unset _ _ _).holdsKey loaded

/-- A key in the file stays there. -/
theorem holdsKey_step
    {directory : Directory}
    {event : Event}
    (undisturbed : event.Undisturbed codeMinLen)
    {key : Bytes}
    (holds : Config.HoldsKey directory.secretFile key) :
    Config.HoldsKey (directory.step libraries event).secretFile key := by
  cases event with
  | start settings calls stopped =>
      obtain ⟨-, unset, readable⟩ := undisturbed
      cases isSystem : directory.system with
      | opened store =>
          simpa only [step, isSystem] using holds
      | closed file last =>
          have kept := ((Config.loads_load unset libraries.quoted settings
            directory.secretFile).of_holdsKey readable holds).1
          simp only [step, isSystem]
          rwa [kept]
  | step op running => exact holds
  | edit file => exact undisturbed.elim

variable {libraries} in
/-- What the file holds after an event was there or has been drawn. -/
theorem held_step
    {directory : Directory}
    {event : Event}
    (undisturbed : event.Undisturbed codeMinLen)
    {key : Bytes}
    (held : (directory.step libraries event).secretFile = some key) :
    directory.secretFile = some key ∨ directory.HasDrawn libraries [event] key := by
  cases event with
  | start settings calls stopped =>
      obtain ⟨-, unset, readable⟩ := undisturbed
      have left := held
      cases isSystem : directory.system with
      | opened store =>
          simp only [step, isSystem] at held
          exact Or.inl held
      | closed file last =>
          simp only [step, isSystem] at held
          have loads := Config.loads_load unset libraries.quoted settings
            directory.secretFile
          refine (loads.held_or_draws readable held).imp_right ?_
          rintro ⟨keyless, draws⟩
          exact ⟨[], settings, calls, stopped, [], rfl, keyless, draws, left⟩
  | step op running => exact Or.inl held
  | edit file => exact undisturbed.elim

/-- Once the file holds a key, everything is opened with it. -/
theorem keyedBy_run
    {directory : Directory}
    {events : List Event}
    (undisturbed : ∀ event ∈ events, event.Undisturbed codeMinLen)
    {key : Bytes}
    (holds : Config.HoldsKey directory.secretFile key) :
    KeyedBy libraries codeMinLen key (directory.storeOps libraries events) ∧
      Config.HoldsKey (directory.run libraries events).secretFile key := by
  induction events generalizing directory with
  | nil => exact ⟨fun _ _ opening => absurd opening List.not_mem_nil, holds⟩
  | cons event rest inductionHypothesis =>
      obtain ⟨first, others⟩ := List.forall_mem_cons.mp undisturbed
      have kept := holdsKey_step libraries first holds
      obtain ⟨keyed, holdsLater⟩ := inductionHypothesis others kept
      refine ⟨fun options stopped opening => ?_, holdsLater⟩
      rw [storeOps_cons, List.mem_append] at opening
      rcases opening with here | later
      · obtain ⟨loaded, holdsLoaded, isKeyed⟩ := opening_step first here
        rw [isKeyed, kept.unique holdsLoaded]
      · exact keyed options stopped later

/-- All stores of a run are opened with one key, which the file holds from the
first of them on. -/
theorem exists_key
    {directory : Directory}
    {events : List Event}
    (undisturbed : ∀ event ∈ events, event.Undisturbed codeMinLen) :
    ∃ key,
      KeyedBy libraries codeMinLen key (directory.storeOps libraries events) ∧
      ∀ earlier rest, events = earlier ++ rest →
        (∃ options stopped,
          .openFile options stopped ∈ directory.storeOps libraries earlier) →
        Config.HoldsKey (directory.run libraries earlier).secretFile key ∧
          (directory.secretFile = some key ∨
            directory.HasDrawn libraries earlier key) := by
  induction events generalizing directory with
  | nil =>
      refine ⟨[], fun _ _ opening => absurd opening List.not_mem_nil, ?_⟩
      rintro earlier rest split ⟨options, stopped, opening⟩
      obtain ⟨rfl, -⟩ := List.nil_eq_append_iff.mp split
      exact absurd opening List.not_mem_nil
  | cons event rest inductionHypothesis =>
      obtain ⟨first, others⟩ := List.forall_mem_cons.mp undisturbed
      by_cases opens : ∃ options stopped,
          .openFile options stopped ∈ directory.ops libraries event
      · obtain ⟨options, stopped, opening⟩ := opens
        obtain ⟨key, holds, -⟩ := opening_step first opening
        obtain ⟨keyed, -⟩ := keyedBy_run libraries others holds
        refine ⟨key, fun options stopped opening => ?_, ?_⟩
        · rw [storeOps_cons, List.mem_append] at opening
          rcases opening with here | later
          · obtain ⟨loaded, holdsLoaded, isKeyed⟩ := opening_step first here
            rw [isKeyed, holds.unique holdsLoaded]
          · exact keyed options stopped later
        · rintro earlier more split ⟨options, stopped, opening⟩
          rcases List.cons_eq_append_iff.mp split with
            ⟨rfl, -⟩ | ⟨between, rfl, isRest⟩
          · exact absurd opening List.not_mem_nil
          have undisturbedBetween : ∀ event ∈ between,
              event.Undisturbed codeMinLen := fun event listed =>
            others event (isRest ▸ List.mem_append_left more listed)
          exact ⟨(keyedBy_run libraries undisturbedBetween holds).2,
            (held_step first holds.1).imp_right fun drawn => drawn.append between⟩
      · obtain ⟨key, keyed, opened⟩ :=
          @inductionHypothesis (directory.step libraries event) others
        have later : ∀ {options stopped events}, .openFile options stopped ∈
            directory.storeOps libraries (event :: events) →
            .openFile options stopped ∈
              (directory.step libraries event).storeOps libraries events := by
          intro options stopped events opening
          rw [storeOps_cons, List.mem_append] at opening
          exact opening.resolve_left fun here => opens ⟨options, stopped, here⟩
        refine ⟨key, fun options stopped opening =>
          keyed options stopped (later opening), ?_⟩
        rintro earlier more split ⟨options, stopped, opening⟩
        rcases List.cons_eq_append_iff.mp split with
          ⟨rfl, -⟩ | ⟨between, rfl, isRest⟩
        · exact absurd opening List.not_mem_nil
        obtain ⟨holds, found⟩ :=
          opened between more isRest ⟨options, stopped, later opening⟩
        refine ⟨holds, ?_⟩
        rcases found with held | drawn
        · exact (held_step first held).imp_right fun drawn => drawn.append between
        · exact Or.inr drawn.cons

end Directory

/-- What closes and opens nothing leaves a closed file as it is. -/
theorem run_closed
    {file : Store.File}
    {last : Option Store.Options}
    {ops : List Store.Op}
    (unopened : ∀ options stopped, .openFile options stopped ∉ ops) :
    (Store.System.closed file last).run ops = .closed file last := by
  induction ops with
  | nil => rfl
  | cons op rest inductionHypothesis =>
      have same : (Store.System.closed file last).step op = .closed file last := by
        cases op with
        | openFile options stopped =>
            exact absurd List.mem_cons_self (unopened options stopped)
        | _ => rfl
      rw [Store.System.run_cons, same]
      exact inductionHypothesis fun options stopped listed =>
        unopened options stopped (List.mem_cons_of_mem _ listed)

/-- Over any number of starts that may stop anywhere, with no variable set and the
key's file left alone: all pastes have their numbers and codes under one key, as
in a single run.  From the first opening on, at which a paste can be created at
the earliest, the file holds this key, which it held at first or which is a head
of what a start has drawn that found none. -/
theorem one_key_over_restarts
    {codeMinLen : Int64}
    {directory : Directory}
    {file : Store.File}
    (isClosed : directory.system = .closed file none)
    {events : List Event}
    (undisturbed : ∀ event ∈ events, event.Undisturbed codeMinLen) :
    let last := directory.run libraries events
    let pastes := directory.system.pastesCreated
      (directory.storeOps libraries events)
    ∃ key,
      let ids := generator libraries codeMinLen key
      pastes.map Store.Paste.seq = Store.freeNumbers ids file.content.pasteSeq
        last.system.content.pasteSeq ∧
      (∀ paste ∈ pastes, ids.code (UInt64.ofNat paste.seq) = .ok paste.code) ∧
      (pastes.map Store.Paste.code).Nodup ∧
      (pastes ≠ [] → ∃ options stopped,
        .openFile options stopped ∈ directory.storeOps libraries events) ∧
      ∀ earlier rest, events = earlier ++ rest →
        (∃ options stopped,
          .openFile options stopped ∈ directory.storeOps libraries earlier) →
        Config.HoldsKey (directory.run libraries earlier).secretFile key ∧
          (directory.secretFile = some key ∨
            directory.HasDrawn libraries earlier key) := by
  intro last pastes
  obtain ⟨key, keyed, found⟩ :=
    @Directory.exists_key libraries codeMinLen directory events undisturbed
  have isLast : last.system =
      directory.system.run (directory.storeOps libraries events) :=
    Directory.system_run directory events
  have sound : directory.system.Sound := by
    rw [isClosed]
    trivial
  obtain ⟨numbers, numbered⟩ := Store.System.created_run sound
    (fun options current => by rw [isClosed] at current; cases current) keyed
  have first : directory.system.content.pasteSeq = file.content.pasteSeq := by
    rw [isClosed]
    rfl
  rw [first, ← isLast] at numbers
  refine ⟨key, numbers, fun paste listed => (numbered paste listed).issued, ?_, ?_,
    found⟩
  · have distinct : (pastes.map Store.Paste.seq).Nodup := by
      rw [numbers]
      exact (Store.freeNumbers_pairwise _ _).imp fun lt => lt.ne
    refine (List.Nodup.of_map _ distinct).map_on ?_
    intro one listed other listed' sameCode
    have sameWord := (generator libraries codeMinLen key).code_injective
      (numbered one listed).issued (sameCode ▸ (numbered other listed').issued)
    have sameNumber := congrArg UInt64.toNat sameWord
    rw [Store.toNat_ofNat_seq (numbered one listed).fits,
      Store.toNat_ofNat_seq (numbered other listed').fits] at sameNumber
    exact List.inj_on_of_nodup_map distinct listed listed' sameNumber
  · intro created
    by_contra unopened
    push Not at unopened
    have stays : last.system = .closed file none := by
      rw [isLast, isClosed]
      exact run_closed unopened
    have noNumbers : pastes.map Store.Paste.seq = [] := by
      rw [numbers, stays]
      exact Store.freeNumbers_self _
    exact created (List.map_eq_nil_iff.mp noNumbers)

/-- Libraries for concrete runs. -/
def Libraries.small : Libraries where
  hmac key _ := Vector.ofFn fun index => key.getD index 0
  zstd := Compress.rawFrames
  quoted := id

/-- A start that draws this byte all over and stores the key. -/
def drawing (byte : UInt8) : Config.SecretCalls where
  environment := []
  readFails := false
  random := .ok (Vector.replicate 32 byte)
  mkdirAll := .ok ()
  writeFile := .ok ()

/-- The first start dies while it writes the key; the head of the key that it
leaves is the key of all others. -/
theorem one_key_over_restarts_small :
    let cut := { drawing 0xAB with writeFile := .error ⟨some 3, []⟩ }
    let creating (instant : Int) : Event :=
      .step (.create (.calm instant) Store.Request.small) fun _ _ => nofun
    let events := [.start .standard cut none,
      .start .standard (drawing 0xCD) none, creating 0,
      .step .shut fun _ _ => nofun, .start .standard (drawing 0xEF) none,
      creating 1]
    let directory : Directory := ⟨none, .closed .fresh none⟩
    let last := directory.run .small events
    let pastes := directory.system.pastesCreated
      (directory.storeOps .small events)
    pastes.map Store.Paste.seq = [1, 2] ∧ last.secretFile = some (ascii "aba") ∧
      ∃ key, pastes.map Store.Paste.seq = Store.freeNumbers
          (generator .small 8 key) 0 last.system.content.pasteSeq ∧
        Config.HoldsKey last.secretFile key ∧
        directory.HasDrawn .small (events.take 2) key := by
  intro cut creating events directory last pastes
  have undisturbed : ∀ event ∈ events, event.Undisturbed 8 := by
    intro event listed
    simp only [events, List.mem_cons, List.not_mem_nil, or_false] at listed
    rcases listed with rfl | rfl | rfl | rfl | rfl | rfl
    · exact ⟨rfl, rfl, rfl⟩
    · exact ⟨rfl, rfl, rfl⟩
    · trivial
    · trivial
    · exact ⟨rfl, rfl, rfl⟩
    · trivial
  obtain ⟨key, numbers, -, -, opened, found⟩ :=
    @one_key_over_restarts .small 8 directory .fresh rfl events undisturbed
  have isNumbers : pastes.map Store.Paste.seq = [1, 2] := by decide +kernel
  have created : pastes ≠ [] := by
    intro none
    rw [none] at isNumbers
    cases isNumbers
  obtain ⟨holds, -⟩ := found events [] (List.append_nil _).symm (opened created)
  obtain ⟨-, held | drawn⟩ := found (events.take 2) (events.drop 2) rfl
    ⟨_, _, List.mem_singleton_self _⟩
  · cases held
  · exact ⟨isNumbers, by decide +kernel, key, numbers, holds, drawn⟩

/-! ## Whatever happens to the key -/

/-- A create call of the running process. -/
def Event.create (env : Store.Env) (request : Store.Request) : Event :=
  .step (.create env request) fun _ _ => nofun

/-- Nothing is capped and nothing has an operator's lifetime. -/
structure Unlimited (settings : Config.Settings) : Prop where
  uncapped : settings.maxBytes ≤ 0
  noAccess : settings.ttlAccess ≤ 0
  noCreate : settings.ttlCreate ≤ 0

theorem Unlimited.ruleless
    {settings : Config.Settings}
    (unlimited : Unlimited settings)
    (key : Bytes) :
    (storeOptions libraries settings key).Ruleless where
  uncapped := Int64.le_iff_toInt_le.mp unlimited.uncapped
  noAccess := Int64.le_iff_toInt_le.mp unlimited.noAccess
  noCreate := Int64.le_iff_toInt_le.mp unlimited.noCreate

variable {libraries}

/-- What is opened along a run has the options of one of its starts. -/
theorem Directory.start_of_mem_storeOps
    {directory : Directory}
    {events : List Event}
    {options : Store.Options}
    {stopped : Option Nat}
    (opening : .openFile options stopped ∈ directory.storeOps libraries events) :
    ∃ settings calls key, .start settings calls stopped ∈ events ∧
      options = storeOptions libraries settings key := by
  induction events generalizing directory with
  | nil => exact absurd opening List.not_mem_nil
  | cons event rest inductionHypothesis =>
      rw [storeOps_cons, List.mem_append] at opening
      rcases opening with here | later
      · obtain ⟨settings, calls, key, rfl, -, -, isOptions⟩ := start_of_opening here
        exact ⟨settings, calls, key, List.mem_cons_self, isOptions⟩
      · obtain ⟨settings, calls, key, listed, isOptions⟩ := inductionHypothesis later
        exact ⟨settings, calls, key, List.mem_cons_of_mem _ listed, isOptions⟩

/-- A store that is open at any point of a run has the options of one of its
starts. -/
theorem Directory.start_of_opened
    {directory : Directory}
    {file : Store.File}
    (isClosed : directory.system = .closed file none)
    {events : List Event}
    {ops rest : List Store.Op}
    (split : directory.storeOps libraries events = ops ++ rest)
    {store : Store.OpenStore}
    (reached : directory.system.run ops = .opened store) :
    ∃ settings calls stopped key, .start settings calls stopped ∈ events ∧
      store.options = storeOptions libraries settings key := by
  rw [isClosed] at reached
  refine @Store.System.options_run_of_family (fun options =>
    ∃ settings calls stopped key, .start settings calls stopped ∈ events ∧
      options = storeOptions libraries settings key) _
    (Store.System.sound_closed file none) (fun _ noOptions => by cases noOptions)
    ops (fun options stopped opening => ?_) store reached
  have listed := List.mem_append_left rest opening
  rw [← split] at listed
  obtain ⟨settings, calls, key, isStart, isOptions⟩ := start_of_mem_storeOps listed
  exact ⟨settings, calls, stopped, key, isStart, isOptions⟩

/-- Whatever happens to the key or to the settings, and wherever starts stop: a
paste that was created is served by a `Get` whose query does not fail, or a rule
hides its row, or a step has removed the row under a rule.  Without a cap and
lifetimes it is always served. -/
theorem pastes_outlive_key
    (inverts : libraries.zstd.Inverts)
    {directory : Directory}
    {file : Store.File}
    (isClosed : directory.system = .closed file none)
    {before : List Event}
    {store : Store.OpenStore}
    (reached : (directory.run libraries before).system = .opened store)
    {env : Store.Env}
    {request : Store.Request}
    {paste : Store.Paste}
    (created : (Store.System.opened store).answer (.create env request) =
      .created paste)
    {after : List Event}
    {current : Store.OpenStore}
    (reachedLater : (directory.run libraries
      (before ++ .create env request :: after)).system = .opened current)
    {now : Store.Env}
    (works : now.fails current.db .readPaste = false) :
    let middle := (directory.run libraries before).step libraries
      (.create env request)
    let stored := paste.row (store.options.codec.compress request.content).1
      (store.options.codec.compress request.content).2
    let served := (Store.System.opened current).answer (.get now paste.code) =
      .got paste request.content
    (served ∨
      (∃ accessedAt, stored.withAccess accessedAt ∈ current.db.pastes.rows ∧
        Store.Hides current.options now.now (stored.withAccess accessedAt)) ∨
      middle.system.Loses (middle.storeOps libraries after) stored) ∧
    (paste.expiresAt = none →
      (∀ settings calls stopped,
        .start settings calls stopped ∈ before ++ .create env request :: after →
          Unlimited settings) →
      served) := by
  intro middle stored served
  rw [Directory.system_run] at reached
  have sound : (Store.System.opened store).Sound := by
    rw [← reached, isClosed]
    exact Store.System.sound_run (Store.System.sound_closed file none) _
  obtain ⟨same, db, isSame, stepped, isCreated⟩ :=
    Store.System.created_of_answer sound created
  cases isSame
  have isMiddle : middle.system = .opened { store with db } := by
    change (directory.run libraries before).system.run [.create env request] = _
    rw [Directory.system_run, reached]
    exact stepped
  have middleSound : middle.system.Sound := by
    have kept := (Store.System.step_spec sound (.create env request)).1
    rwa [isMiddle, ← stepped]
  have isDb : middle.system.content = db := by
    rw [isMiddle]
    rfl
  have isLater : middle.system.run (middle.storeOps libraries after) =
      .opened current := by
    rw [← Directory.system_run]
    rw [Directory.run, Runs.run_append] at reachedLater
    exact reachedLater
  have opened : ∀ ops rest later,
      middle.storeOps libraries after = ops ++ rest →
      middle.system.run ops = .opened later →
        ∃ settings calls stopped key,
          .start settings calls stopped ∈ before ++ .create env request :: after ∧
            later.options = storeOptions libraries settings key := by
    intro ops rest later split isOpen
    refine @Directory.start_of_opened libraries directory file isClosed _
      (directory.storeOps libraries before ++ .create env request :: ops) rest
      ?_ later ?_
    · rw [Directory.storeOps, Runs.behind_append, List.append_assoc,
        List.cons_append, ← split]
      rfl
    · rw [Store.System.run_append, reached, Store.System.run_cons, stepped,
        ← isMiddle]
      exact isOpen
  have library : store.options.codec.zstd = libraries.zstd := by
    obtain ⟨settings, calls, stopped, key, -, isOptions⟩ :=
      Directory.start_of_opened isClosed (List.append_nil _).symm reached
    rw [isOptions]
    rfl
  have sameLibrary : current.options.codec.zstd = store.options.codec.zstd := by
    obtain ⟨settings, calls, stopped, key, -, isOptions⟩ :=
      opened _ [] current (List.append_nil _).symm isLater
    rw [isOptions, library]
    rfl
  have isServed : Store.get current.options now paste.code current.db =
      .ok (paste, request.content) → served := by
    intro read
    change (Store.System.opened current).answer _ = _
    rw [Store.System.answer_get, read]
  constructor
  · exact (isCreated.served_or_lost (library ▸ inverts) middleSound isDb isLater
      sameLibrary works).imp_left isServed
  · intro lasting unlimited
    refine isServed (isCreated.served_of_ruleless (library ▸ inverts) middleSound
      isDb isLater sameLibrary works lasting ?_)
    intro ops rest later split isOpen
    obtain ⟨settings, calls, stopped, key, listed, isOptions⟩ :=
      opened ops rest later split isOpen
    rw [isOptions]
    exact (unlimited settings calls stopped listed).ruleless libraries key

/-- The key is removed and another one drawn between the create and the read. -/
theorem pastes_outlive_key_small :
    let settings := { Config.Settings.standard with maxBytes := 0 }
    let before := [.start settings (drawing 0xAB) none]
    let after := [.step .shut fun _ _ => nofun, .edit none,
      .start settings (drawing 0xCD) none]
    let directory : Directory := ⟨none, .closed .fresh none⟩
    ∃ current paste, (directory.run .small
        (before ++ .create (.calm 0) Store.Request.small :: after)).system =
          .opened current ∧
      (Store.System.opened current).answer (.get (.calm 1) paste.code) =
        .got paste Store.Request.small.content := by
  intro settings before after directory
  obtain ⟨store, reached⟩ : ∃ store,
      (directory.run .small before).system = .opened store := ⟨_, rfl⟩
  let paste : Store.Paste :=
    ⟨1, ascii "00000000", [], [], 1, 1, 10, 0, none⟩
  have created : (Store.System.opened store).answer
      (.create (.calm 0) Store.Request.small) = .created paste := by
    rw [← reached]
    decide +kernel
  have described : (directory.run .small
      (before ++ .create (.calm 0) Store.Request.small :: after)).system.answer
        (.metadata (.calm 1) paste.code) = .described paste := by
    decide +kernel
  obtain ⟨current, reachedLater, -⟩ :=
    Store.System.described_of_answer described
  have spec := @pastes_outlive_key .small Compress.rawFrames_inverts directory
    .fresh rfl before store reached _ _ paste created after current reachedLater
    (.calm 1) rfl
  refine ⟨current, paste, reachedLater, spec.2 rfl ?_⟩
  intro other calls stopped listed
  have isSettings : other = settings := by
    simp only [before, after, Event.create, List.mem_append, List.mem_cons,
      Event.start.injEq, reduceCtorEq, List.not_mem_nil, or_false, false_or] at listed
    rcases listed with ⟨rfl, -⟩ | ⟨rfl, -⟩ <;> rfl
  rw [isSettings]
  exact ⟨by decide, by decide, by decide⟩

end Cmd
end Haste
