import Haste.Foundation.Cache
import Haste.HttpApi.Read
import Haste.Store.Histories

/-!
# The totals of the corpus

The stats endpoint reports how many pastes there are and what they take up, to
whoever the mode lets through.  The totals come from a scan of the table, of
which the last one is reused for ten seconds.  The server is the store with that
cache beside it; a request that is not let through touches neither.
-/

namespace Haste

open Go
open Foundation

namespace Store

/-- `Stats`. -/
structure Stats where
  count : Int
  rawBytes : Int
  storedSize : Int
  maxBytes : Int
  deriving DecidableEq, Repr, Inhabited

/-- `Store.Stats` of a table.  A sum beyond 64 bits fails the query. -/
def Database.stats (maxBytes : Int) (db : Database) : Option Stats :=
  let rawBytes := (db.pastes.rows.map Row.rawBytes).sum
  let storedSize := (db.pastes.rows.map fun row => (row.bytes : Int)).sum
  if -2 ^ 63 ≤ rawBytes ∧ rawBytes < 2 ^ 63 ∧ storedSize < 2 ^ 63 then
    some
      { count := db.pastes.rows.length
        rawBytes := rawBytes
        storedSize := storedSize
        maxBytes := maxBytes }
  else none

/-- `Store.Stats`: the query may also fail by itself, and does on a closed
database. -/
def System.stats (fails : Bool) : System → Except Unit Stats
  | .closed _ _ => .error ()
  | .opened store =>
      if fails then .error ()
      else match store.db.stats store.options.maxBytes with
        | some stats => .ok stats
        | none => .error ()

/-- The totals of an open store: the bytes are those its counter holds. -/
theorem System.stats_eq_ok
    {system : System}
    (sound : system.Sound)
    {fails : Bool}
    {stats : Stats}
    (scanned : system.stats fails = .ok stats) :
    ∃ store, system = .opened store ∧
      stats.count = store.db.pastes.rows.length ∧
      stats.rawBytes = (store.db.pastes.rows.map Row.rawBytes).sum ∧
      stats.storedSize = store.db.storedBytes ∧
      stats.maxBytes = store.options.maxBytes := by
  cases system with
  | closed file last => cases scanned
  | opened store =>
      have accounted : store.db.Accounted := sound
      have total := sum_bytes store.db.pastes.rows
      change _ = ((store.db.pastes.totalBytes : Nat) : Int) at total
      unfold System.stats Database.stats at scanned
      simp only at scanned
      split at scanned
      · cases scanned
      · split at scanned
        · rename_i found
          cases scanned
          split at found
          · cases found
            exact ⟨store, rfl, rfl, rfl, total.trans accounted.stored.symm, rfl⟩
          · cases found
        · cases scanned

end Store

namespace HttpApi

/-- `config.StatsMode`. -/
inductive StatsMode
  | statsOff
  | statsToken
  | statsPublic
  deriving DecidableEq, Repr

/-- The settings of the endpoint: `Stats` and `StatsToken`. -/
structure StatsSettings where
  mode : StatsMode
  token : Bytes

/-- `statsCacheFor`. -/
def statsCacheFor : Int := 10 * second

/-- `Server.statsAuthorized`. -/
def statsAuthorized (settings : StatsSettings) (request : Incoming) : Bool :=
  let authorization := request.header.get "Authorization"
  hasPrefix authorization (ascii "Bearer ") &&
    authorization.drop (ascii "Bearer ").length == settings.token

/-- The fields `handleStats` writes, in the order `Encode` gives the keys of a
map. -/
def statsFields (texts : Texts) (stats : Store.Stats) : List Bytes :=
  let capped := 0 < stats.maxBytes
  [field "count" (number stats.count)] ++
    (if capped then [field "maxBytes" (number stats.maxBytes)] else []) ++
    [field "ratio"
      (if 0 < stats.storedSize then texts.ratio stats.rawBytes stats.storedSize
      else ascii "0"),
      field "rawBytes" (number stats.rawBytes),
      field "storedBytes" (number stats.storedSize)] ++
    (if capped then
      [field "usedFraction" (texts.ratio stats.storedSize stats.maxBytes)]
    else [])

/-- An error written over a header that has fields already. -/
def ErrorResponse.writeOver
    (header : Header)
    (response : ErrorResponse) : Response :=
  { response.write with header := header.merge response.write.header }

/-- What `handleStats` writes once it has asked for the totals.  A failed scan is
one of the errors `fail` knows nothing of. -/
def writeStats
    (texts : Texts)
    (header : Header) : Except Unit Store.Stats → Response
  | .ok stats => writeJSON header 200 (some (object (statsFields texts stats)))
  | .error () =>
      (writeError 500 "internal" "internal server error").writeOver header

/-- The header of a request that is let through. -/
def StatsSettings.header (settings : StatsSettings) : Header :=
  match settings.mode with
  | .statsPublic =>
      Header.empty.set "Cache-Control"
        (ascii "public, max-age=" ++ number (statsCacheFor / second))
  | _ => Header.empty.set "Cache-Control" (ascii "no-store")

/-- `Server.handleStats`, with the scan it makes if it makes one. -/
def handleStats
    (settings : StatsSettings)
    (texts : Texts)
    (now : Int)
    (request : Incoming)
    (scan : Except Unit Store.Stats)
    (cache : Cache Store.Stats) : Response × Cache Store.Stats :=
  match settings.mode with
  | .statsPublic =>
      let asked := cache.ask statsCacheFor now scan
      (writeStats texts settings.header asked.1, asked.2)
  | .statsToken =>
      if statsAuthorized settings request = false then
        ((writeError 401 "unauthorized" "stats requires a bearer token").writeOver
          (Header.empty.set "Www-Authenticate"
            (ascii "Bearer realm=\"stats\"")), cache)
      else
        let asked := cache.ask statsCacheFor now scan
        (writeStats texts settings.header asked.1, asked.2)
  | .statsOff => ((writeError 404 "not_found" "no such endpoint").write, cache)

/-- Whether the mode lets a request through to the totals. -/
def StatsSettings.admits
    (settings : StatsSettings)
    (request : Incoming) : Bool :=
  match settings.mode with
  | .statsPublic => true
  | .statsToken => statsAuthorized settings request
  | .statsOff => false

/-- What a request that is not let through is answered. -/
def StatsSettings.refusal (settings : StatsSettings) : Response :=
  match settings.mode with
  | .statsToken =>
      (writeError 401 "unauthorized" "stats requires a bearer token").writeOver
        (Header.empty.set "Www-Authenticate" (ascii "Bearer realm=\"stats\""))
  | _ => (writeError 404 "not_found" "no such endpoint").write

/-- A request is answered from the cache when it is let through, and refused
without a look at it otherwise. -/
theorem handleStats_eq
    (settings : StatsSettings)
    (texts : Texts)
    (now : Int)
    (request : Incoming)
    (scan : Except Unit Store.Stats)
    (cache : Cache Store.Stats) :
    handleStats settings texts now request scan cache =
      if settings.admits request then
        (writeStats texts settings.header (cache.ask statsCacheFor now scan).1,
          (cache.ask statsCacheFor now scan).2)
      else (settings.refusal, cache) := by
  unfold handleStats StatsSettings.admits StatsSettings.refusal
  cases settings.mode with
  | statsPublic => rfl
  | statsOff => rfl
  | statsToken => cases statsAuthorized settings request <;> rfl

/-! ## The server over time -/

/-- A step of the store, or a request for the totals: when it comes, and whether
the query fails should it come to one. -/
inductive StatsEvent
  | store (op : Store.Op)
  | get (now : Int) (request : Incoming) (fails : Bool)

/-- The store and the cache beside it. -/
structure StatsServer where
  system : Store.System
  cache : Cache Store.Stats

namespace StatsServer

variable (settings : StatsSettings) (texts : Texts)

/-- The server after an event.  A process that opens the file starts with an empty
cache. -/
def step (server : StatsServer) : StatsEvent → StatsServer
  | .store op =>
      { system := server.system.step op
        cache :=
          match op with
          | .openFile _ _ => Cache.empty
          | _ => server.cache }
  | .get now request fails =>
      { server with
        cache := (handleStats settings texts now request
          (server.system.stats fails) server.cache).2 }

/-- The answer to a request. -/
def answer
    (server : StatsServer)
    (now : Int)
    (request : Incoming)
    (fails : Bool) : Response :=
  (handleStats settings texts now request (server.system.stats fails)
    server.cache).1

end StatsServer

/-- What an event is to the cache: only a request that is let through asks it. -/
def StatsEvent.act (settings : StatsSettings) :
    StatsEvent → Cache.Act (Option Store.Op) Bool
  | .store op => .own (some op)
  | .get now request fails =>
      if settings.admits request then .ask now fails else .own none

/-- The own steps of the store, without the cache. -/
def stepStore (system : Store.System) : Option Store.Op → Store.System
  | some op => system.step op
  | none => system

/-- Opening the file starts with an empty cache. -/
def forgetsStats : Option Store.Op → Bool
  | some (.openFile _ _) => true
  | _ => false

section Server

variable {settings : StatsSettings} {texts : Texts}

/-- The server is the store with a cache in front of its scan. -/
theorem StatsServer.react_act
    (server : StatsServer)
    (event : StatsEvent) :
    Cache.react stepStore forgetsStats statsCacheFor Store.System.stats
        (server.system, server.cache) (event.act settings) =
      ((server.step settings texts event).system,
        (server.step settings texts event).cache) := by
  cases event with
  | store op => cases op <;> rfl
  | get now request fails =>
      simp only [StatsServer.step, handleStats_eq, StatsEvent.act]
      cases settings.admits request <;> rfl

theorem StatsServer.run_act
    (server : StatsServer)
    (events : List StatsEvent) :
    Runs.run (Cache.react stepStore forgetsStats statsCacheFor
        Store.System.stats) (server.system, server.cache)
          (events.map (StatsEvent.act settings)) =
      ((Runs.run (StatsServer.step settings texts) server events).system,
        (Runs.run (StatsServer.step settings texts) server events).cache) := by
  induction events generalizing server with
  | nil => rfl
  | cons event rest inductionHypothesis =>
      rw [List.map_cons, Runs.run_cons, Runs.run_cons, react_act,
        inductionHypothesis]

/-- An event that asks the cache is a request that is let through. -/
theorem StatsEvent.act_eq_ask
    {event : StatsEvent}
    {now : Int}
    {fails : Bool}
    (asks : event.act settings = .ask now fails) :
    ∃ request, event = .get now request fails ∧
      settings.admits request = true := by
  cases event with
  | store op => cases asks
  | get instant request failing =>
      simp only [StatsEvent.act] at asks
      split at asks
      · rename_i admitted
        cases asks
        exact ⟨request, rfl, admitted⟩
      · cases asks

theorem StatsServer.sound_run
    {server : StatsServer}
    (sound : server.system.Sound)
    (events : List StatsEvent) :
    (Runs.run (StatsServer.step settings texts) server events).system.Sound := by
  refine Runs.invariant_run_of_forall
    (fun server : StatsServer => server.system.Sound) ?_ sound
  intro server event here
  cases event with
  | store op => exact (Store.System.step_spec here op).1
  | get now request fails => exact here

/-- What the server answers from its cache or by a scan was scanned less than ten
seconds before, for a request that was let through. -/
theorem StatsServer.scanned_recently
    {system : Store.System}
    {events : List StatsEvent}
    {now : Int}
    {request : Incoming}
    {fails : Bool}
    {stats : Store.Stats}
    (admitted : settings.admits request = true)
    (asked : ((Runs.run (StatsServer.step settings texts)
      ⟨system, Cache.empty⟩ events).cache.ask statsCacheFor now
        ((Runs.run (StatsServer.step settings texts)
          ⟨system, Cache.empty⟩ events).system.stats fails)).1 = .ok stats) :
    ∃ before scannedAt scanner failing after,
      events ++ [.get now request fails] =
        before ++ .get scannedAt scanner failing :: after ∧
      (∀ options stopped, .store (.openFile options stopped) ∉ after) ∧
      settings.admits scanner = true ∧
      now - scannedAt < statsCacheFor ∧
      (Runs.run (StatsServer.step settings texts)
        ⟨system, Cache.empty⟩ before).system.stats failing = .ok stats := by
  have reached : ∀ events : List StatsEvent,
      Runs.run (Cache.react stepStore forgetsStats statsCacheFor
        Store.System.stats) (system, Cache.empty)
          (events.map (StatsEvent.act settings)) = _ :=
    @StatsServer.run_act settings texts ⟨system, Cache.empty⟩
  obtain ⟨acts, scannedAt, failing, rest, split, kept, within, scanned⟩ :=
    Cache.answered_recently (show (0 : Int) < statsCacheFor by decide)
      (show ((Runs.run (Cache.react stepStore forgetsStats statsCacheFor
        Store.System.stats) (system, Cache.empty)
          (events.map (StatsEvent.act settings))).2.ask statsCacheFor now
            (Store.System.stats fails _)).1 = .ok stats by
              rw [reached]
              exact asked)
  have mapped : (events ++ [StatsEvent.get now request fails]).map
      (StatsEvent.act settings) = acts ++ .ask scannedAt failing :: rest := by
    rw [List.map_append, ← split]
    simp [StatsEvent.act, admitted]
  obtain ⟨before, later, isSplit, isBefore, isLater⟩ :=
    List.map_eq_append_iff.mp mapped
  obtain ⟨event, after, rfl, asks, isAfter⟩ := List.map_eq_cons_iff.mp isLater
  obtain ⟨scanner, rfl, isAdmitted⟩ := StatsEvent.act_eq_ask asks
  refine ⟨before, scannedAt, scanner, failing, after, isSplit, ?_, isAdmitted,
    within, ?_⟩
  · intro options stopped listed
    have isKept := kept (some (.openFile options stopped))
      (isAfter ▸ List.mem_map_of_mem listed)
    cases isKept
  · rw [← isBefore, reached] at scanned
    exact scanned

end Server

/-- The queries for the totals that a run of the server makes, and whether they
succeed. -/
def StatsServer.scans
    (settings : StatsSettings)
    (server : StatsServer)
    (events : List StatsEvent) : List (Int × Bool) :=
  Cache.fetches stepStore forgetsStats statsCacheFor Store.System.stats
    (server.system, server.cache) (events.map (StatsEvent.act settings))

/-- The server before the file is opened. -/
def StatsServer.start (file : Store.File) (last : Option Store.Options) :
    StatsServer :=
  ⟨.closed file last, Cache.empty⟩

/-- After every run of the store's operations and requests for the totals, with
whatever clocks: a request that is not let through is answered the same in every
state and changes nothing.  Any other is answered the totals of one and the same
table, that of a state of this process at which a request that was let through
scanned it less than ten seconds before, where the bytes are those its counter
held; or an error, and then nothing so recent was remembered and its own query
failed.  After a scan that succeeds a process makes none for ten seconds. -/
theorem stats_of_recent_scan
    (settings : StatsSettings)
    (texts : Texts)
    (file : Store.File)
    (last : Option Store.Options)
    (events : List StatsEvent)
    (now : Int)
    (request : Incoming)
    (fails : Bool) :
    let start := StatsServer.start file last
    let server := Runs.run (StatsServer.step settings texts) start events
    let answer := server.answer settings texts now request fails
    (settings.admits request = false →
      answer = settings.refusal ∧
        server.step settings texts (.get now request fails) = server) ∧
    (settings.admits request = true →
      (answer = writeStats texts settings.header (.error ()) ∧
        server.cache.recent statsCacheFor now = false ∧
        server.system.stats fails = .error ()) ∨
      ∃ before scannedAt scanner failing after,
        ∃ (store : Store.OpenStore) (stats : Store.Stats),
        events ++ [.get now request fails] =
          before ++ .get scannedAt scanner failing :: after ∧
        (∀ options stopped, .store (.openFile options stopped) ∉ after) ∧
        settings.admits scanner = true ∧
        now - scannedAt < statsCacheFor ∧
        (Runs.run (StatsServer.step settings texts) start before).system =
          .opened store ∧
        stats.count = store.db.pastes.rows.length ∧
        stats.rawBytes = (store.db.pastes.rows.map Store.Row.rawBytes).sum ∧
        stats.storedSize = store.db.storedBytes ∧
        stats.maxBytes = store.options.maxBytes ∧
        answer = writeStats texts settings.header (.ok stats)) ∧
    ∀ process, (∀ options stopped,
        .store (.openFile options stopped) ∉ process) →
      (server.scans settings process).Pairwise
        fun earlier later =>
          earlier.2 = true → earlier.1 + statsCacheFor ≤ later.1 := by
  intro start server answer
  refine ⟨?_, ?_, ?_⟩
  · intro refused
    have ended := handleStats_eq settings texts now request
      (server.system.stats fails) server.cache
    rw [refused] at ended
    refine ⟨congrArg Prod.fst ended, ?_⟩
    change StatsServer.mk server.system _ = server
    rw [ended]
    rfl
  · intro admitted
    have ended := handleStats_eq settings texts now request
      (server.system.stats fails) server.cache
    rw [if_pos admitted] at ended
    have isAnswer : answer = writeStats texts settings.header
        (server.cache.ask statsCacheFor now (server.system.stats fails)).1 :=
      congrArg Prod.fst ended
    cases asked : (server.cache.ask statsCacheFor now
        (server.system.stats fails)).1 with
    | error failure =>
        rw [asked] at isAnswer
        exact Or.inl ⟨isAnswer, Cache.ask_eq_error asked⟩
    | ok stats =>
        rw [asked] at isAnswer
        obtain ⟨before, scannedAt, scanner, failing, after, split, running,
          isAdmitted, within, scanned⟩ :=
            StatsServer.scanned_recently admitted asked
        obtain ⟨store, isOpen, count, rawBytes, storedSize, maxBytes⟩ :=
          Store.System.stats_eq_ok
            (StatsServer.sound_run (Store.System.sound_closed file last) before)
            scanned
        exact Or.inr ⟨before, scannedAt, scanner, failing, after, store, stats,
          split, running, isAdmitted, within, isOpen, count, rawBytes,
          storedSize, maxBytes, isAnswer⟩
  · intro process running
    refine (Cache.fetches_spaced (show (0 : Int) ≤ statsCacheFor by decide) ?_
      (server.system, server.cache)).2
    intro op listed
    obtain ⟨event, isListed, same⟩ := List.mem_map.mp listed
    cases event with
    | get instant incoming failing =>
        simp only [StatsEvent.act] at same
        split at same
        · cases same
        · cases same
          rfl
    | store own =>
        cases same
        cases own with
        | openFile options stopped =>
            exact absurd isListed (running options stopped)
        | _ => rfl

end HttpApi
end Haste
