import Haste.Foundation.Cache
import Haste.HttpApi.Agreement
import Haste.HttpApi.BodyLimit
import Haste.HttpApi.ClientAddress
import Haste.HttpApi.QuerySettings
import Haste.HttpApi.Routing
import Haste.HttpApi.Shell
import Haste.HttpApi.Stats
import Haste.HttpApi.Vary

/-!
# The whole server

The server is the store with the rate limiter and the cached totals beside it.
Each request passes the layers of `Server.Handler` and the mux, is answered by
one handler, and moves the state on by at most one call of the limiter, one scan
and one operation of the store.  Between requests the sweeper runs, and the
process ends and starts again.
-/

namespace Haste
namespace HttpApi

open Go
open Foundation

/-! ## Requests -/

/-- `http.Request`, with the body as it arrives. -/
structure HttpRequest where
  method : Bytes
  /-- `r.URL.EscapedPath()` -/
  escapedPath : Bytes
  /-- `r.URL.Path` -/
  path : Bytes
  unescapes : pathUnescape escapedPath = some path
  rawQuery : Bytes
  host : Bytes
  tls : Bool
  header : Header
  remoteAddr : Bytes
  sent : Bytes
  /-- Whether the body breaks off after what was sent. -/
  breaksOff : Bool

namespace HttpRequest

/-- What the handlers read of a request, with what the mux captured. -/
def incoming (request : HttpRequest) (code : Bytes) : Incoming where
  method := request.method
  code := code
  host := request.host
  tls := request.tls
  header := request.header

/-- `io.ReadAll` of the limited body. -/
def readBody (limit : Int64) (request : HttpRequest) : Except ReadError Bytes :=
  match HttpApi.readBody limit request.sent with
  | .error error => .error error
  | .ok body => if request.breaksOff then .error .unreadable else .ok body

end HttpRequest

/-- What a request meets: the clocks the limiter and the cache of the totals read
and the one its response is written by, the call of the store, and whether a
scan would fail. -/
structure Occasion where
  calledAt : Int
  env : Store.Env
  shownAt : Int
  scanFails : Bool

/-! ## The frontend -/

/-- What is found under a name of the embedded frontend. -/
inductive Entry
  | file (content : Bytes)
  | directory
  /-- What cannot be described or read at an offset. -/
  | unreadable

/-- The embedded frontend.  Its name `index.html` is the page all other pages
are made of. -/
structure Frontend where
  entry : Bytes → Option Entry

/-- `indexHTML`. -/
def Frontend.index (frontend : Frontend) : Option Bytes :=
  match frontend.entry (ascii "index.html") with
  | some (.file content) => some content
  | _ => none

/-- The shell that `New` builds, or none for a frontend without an index. -/
def Frontend.shell (frontend : Frontend) : Option Shell :=
  frontend.index.bind newShell

/-- What `net/http` answers by itself: a file whose headers are set, and a
request that no pattern matches or whose path is not clean. -/
structure NetHTTP where
  serveContent : Incoming → Header → Bytes → Bytes → Response
  reply : HttpRequest → Routed → Header → Response

/-- The configuration a server is built from, with what the code around it is
given as parameters. -/
structure Site where
  settings : Config.Settings
  config : Config
  stats : StatsSettings
  rps : ℚ
  burst : Int
  texts : Texts
  encoders : Encoders
  frontend : Frontend
  net : NetHTTP
  /-- The runtime's `urlmaxqueryparams`. -/
  queryLimit : Nat

/-- `path.Base`. -/
def pathBase (path : Bytes) : Bytes :=
  if path = [] then ascii "."
  else
    let trimmed := path.rdropWhile (· == 0x2F)
    let last := trimmed.rtakeWhile (· != 0x2F)
    if last = [] then ascii "/" else last

/-- `uiMissingPage`. -/
def uiMissingPage : Bytes := utf8
  "<!doctype html><meta charset=\"utf-8\"><title>Haste</title>
<style>body\x7bfont:14px/1.6 ui-monospace,Menlo,monospace;margin:6rem auto;max-width:34rem;padding:0 1.5rem\x7d
code\x7bbackground:#8881;border-radius:4px;padding:.15rem .35rem\x7d</style>
<h1>Frontend not built</h1>
<p>The API is running. Build the web assets and recompile:</p>
<p><code>make build</code></p>
<p>The JSON API at <code>/api/pastes</code> works without it.</p>"

/-- The code that `serveIndex` takes a path for, if it has the shape of one. -/
def HttpRequest.pageCode (request : HttpRequest) : Option Bytes :=
  let code := trimPrefix request.path (ascii "/")
  if Id.valid code then some code else none

/-- `serveIndex`, given what `Meta` answers for the code of the path. -/
def serveIndex
    (site : Site)
    (request : HttpRequest)
    (header : Header)
    (described : Bytes → Option Store.Paste)
    (now : Int) : Response :=
  let header := (header.set "Content-Type" (ascii "text/html; charset=utf-8")).set
    "Cache-Control" (ascii "no-cache")
  match site.frontend.shell with
  | none => { status := 503, header := header, body := uiMissingPage }
  | some shell =>
      let paste := request.pageCode.bind described
      let header := if paste.isSome then noIndex header else header
      let body := shell.render paste now
      let tag := site.encoders.etagFor body
      let header := header.set "Etag" tag
      if etagMatches (request.header.get "If-None-Match") tag then
        { status := 304, header := header.del "Content-Type", body := [] }
      else { status := 200, header := header, body := body }

/-- `missingUIFile`. -/
def missingUIFile
    (site : Site)
    (request : HttpRequest)
    (header : Header)
    (described : Bytes → Option Store.Paste)
    (now : Int)
    (name : Bytes) : Response :=
  if contains (pathBase name) (ascii ".") then
    (writeError 404 "not_found" "no such file").writeOver header
  else serveIndex site request header described now

/-- The name `handleUI` asks the frontend for. -/
def HttpRequest.fileName (request : HttpRequest) : Bytes :=
  trimPrefix (pathClean request.path) (ascii "/")

/-- `handleUI`. -/
def handleUI
    (site : Site)
    (request : HttpRequest)
    (header : Header)
    (described : Bytes → Option Store.Paste)
    (now : Int) : Response :=
  let name := request.fileName
  if name = [] ∨ name = ascii "." then
    serveIndex site request header described now
  else match site.frontend.entry name with
    | some (.file content) =>
        let lasts :=
          if hasPrefix name (ascii "assets/") then
            ascii "public, max-age=31536000, immutable"
          else ascii "public, max-age=300"
        let header := (header.set "Cache-Control" lasts).set "Etag"
          (site.encoders.etagFor content)
        site.net.serveContent (request.incoming []) header name content
    | _ => missingUIFile site request header described now name

/-! ## The other handlers -/

/-- `handleHealth`. -/
def handleHealth (header : Header) : Response :=
  writeJSON header 200 (some (object [field "status" (quote (ascii "ok"))]))

/-- `handleConfig`: `Encode` sorts the keys of a map. -/
def handleConfig (site : Site) : Response :=
  writeJSON (Header.empty.set "Cache-Control" (ascii "public, max-age=60")) 200
    (some (object
      ((if site.config.baseURL ≠ [] then
          [field "baseUrl" (quote site.config.baseURL)]
        else []) ++
        [field "cleanupEverySecs" (number
            (truncate (durationIn second site.settings.cleanupInterval.toInt))),
          field "expiryOptionsSecs" (ascii "[" ++
            (ascii ",").intercalate (expiryOptionsSecs.map number) ++ ascii "]"),
          field "maxChars" (number site.settings.maxChars.toInt),
          field "maxTitleChars" (number Store.maxTitleChars)] ++
        (if site.stats.mode = .statsPublic then
          [field "statsPublic" (ascii "true")]
        else []))))

/-- `handleLegacyCreate`, once the paste is stored. -/
def handleLegacyCreate (paste : Store.Paste) : Response :=
  writeJSON Header.empty 200
    (some (object [field "key" (quote paste.code)]))

/-! ## The server -/

/-- `Server`: what its requests change. -/
structure Server where
  system : Store.System
  limiter : Option IPLimiter
  cache : Cache Store.Stats

namespace Server

/-- The server of a process that has just opened its file, or has not yet. -/
def start (site : Site) (system : Store.System) : Server where
  system := system
  limiter := newIPLimiter site.rps site.burst
  cache := Cache.empty

variable (site : Site) (server : Server) (store : Store.OpenStore)
  (request : HttpRequest) (occasion : Occasion)

/-- The call of the limiter that a create request makes. -/
def call : Call where
  ip := clientIP request.header request.remoteAddr site.config.trustProxy
  now := occasion.calledAt

/-- What `create` reads of a create request. -/
def asked : Request where
  allowed := (allow server.limiter (call site request occasion)).1
  body := request.readBody site.settings.maxBodyBytes
  query := parseQuery site.queryLimit request.rawQuery
  contentType := request.header.get "Content-Type"

/-- What `create` answers to a create request, and the database it leaves. -/
def made : Except ErrorResponse (Store.Paste × Bytes) × Store.Database :=
  create unmarshal store.options (server.asked site request occasion)
    occasion.env store.db

/-- What `Get` answers a handler. -/
def found (code : Bytes) : Except Store.Error (Store.Paste × Bytes) :=
  Store.get store.options occasion.env code store.db

/-- What `Meta` answers `serveIndex`. -/
def described (code : Bytes) : Option Store.Paste :=
  (Store.metadata store.options occasion.env code store.db).toOption

/-- What the handler inside `buffered` writes, for an endpoint that has one. -/
def recorded (endpoint : Endpoint) (code : Bytes) : Option Response :=
  let incoming := request.incoming code
  let route := fun route : Route =>
    some (route.handle site.config site.texts occasion.shownAt incoming
      (found store occasion code))
  match endpoint with
  | .health | .ui => none
  | .config => some (handleConfig site)
  | .stats => some (handleStats site.stats site.texts occasion.calledAt incoming
      (server.system.stats occasion.scanFails) server.cache).1
  | .create => some
      (match (server.made site store request occasion).1 with
      | .ok (paste, content) =>
          handleCreate site.config site.texts incoming paste content
      | .error error => error.write)
  | .read => route .read
  | .raw => route .raw
  | .download => route .download
  | .legacyCreate => some
      (match (server.made site store request occasion).1 with
      | .ok (paste, _) => handleLegacyCreate paste
      | .error error => error.write)
  | .legacyRead => some
      (match found store occasion code with
      | .ok (paste, content) => handleLegacyRead paste content
      | .error error => (fail error).write)

/-- What an endpoint writes, over the header that the layers around it have
set. -/
def output (endpoint : Endpoint) (code : Bytes) (header : Header) : Response :=
  match server.recorded site store request occasion endpoint code with
  | some response =>
      buffered site.encoders header (request.incoming code) response
  | none =>
      if endpoint = .health then handleHealth header
      else handleUI site request header (described store occasion)
        occasion.shownAt

/-- The server after a handler. -/
def next (endpoint : Endpoint) (code : Bytes) : Server :=
  match endpoint with
  | .stats =>
      { server with
        cache := (handleStats site.stats site.texts occasion.calledAt
          (request.incoming code) (server.system.stats occasion.scanFails)
          server.cache).2 }
  | .create | .legacyCreate =>
      { server with
        system := .opened
          { store with db := (server.made site store request occasion).2 }
        limiter := (allow server.limiter (call site request occasion)).2 }
  | .read | .raw | .download | .legacyRead =>
      { server with
        system := server.system.step (.get occasion.env code) }
  | .health | .config | .ui => server

/-- A request that `cors` answers itself. -/
def isPreflight : Bool :=
  request.method == ascii "OPTIONS" &&
    request.header.get "Access-Control-Request-Method" != []

/-- What the mux writes, over the header that the layers around it have set. -/
def routed (header : Header) : Response :=
  match mux request.method request.escapedPath with
  | .handled endpoint code =>
      server.output site store request occasion endpoint code header
  | routed => site.net.reply request routed header

/-- The response to a request, or none where no store is open.  To `HEAD` no
body is sent. -/
def answer : Option Response :=
  match server.system with
  | .closed _ _ => none
  | .opened store =>
      let response := cors site.config (request.incoming [])
        (securityHeaders Header.empty)
        (server.routed site store request occasion)
      some (if request.method = ascii "HEAD" then { response with body := [] }
        else response)

/-- The handler that a request reaches, and what the mux captured for it. -/
def reached : Option (Endpoint × Bytes) :=
  if isPreflight request then none
  else match mux request.method request.escapedPath with
    | .handled endpoint code => some (endpoint, code)
    | _ => none

/-- The server after a request. -/
def afterRequest : Server :=
  match server.system, reached request with
  | .opened store, some (endpoint, code) =>
      server.next site store request occasion endpoint code
  | _, _ => server

end Server

/-- What happens besides requests: the process starts and ends, and its sweeper
runs. -/
inductive Background
  | openFile (options : Store.Options) (stopped : Option Nat)
  | shut
  | takeAccess (sweeping : Bool)
  | flushAccess (env : Store.Env)
  | sweep (env : Store.Env)

/-- The step of the store. -/
def Background.op : Background → Store.Op
  | .openFile options stopped => .openFile options stopped
  | .shut => .shut
  | .takeAccess sweeping => .takeAccess sweeping
  | .flushAccess env => .flushAccess env
  | .sweep env => .sweep env

/-- What happens to a server. -/
inductive Event
  | request (request : HttpRequest) (occasion : Occasion)
  | background (background : Background)

namespace Server

/-- The server after an event.  A process that starts has a limiter and a cache
of its own. -/
def step (site : Site) (server : Server) : Event → Server
  | .request request occasion => server.afterRequest site request occasion
  | .background background =>
      match background with
      | .openFile options stopped =>
          match server.system with
          | .closed _ _ =>
              start site (server.system.step (.openFile options stopped))
          | .opened _ => server
      | background => { server with system := server.system.step background.op }

/-- The server after a run. -/
abbrev run (site : Site) (server : Server) (events : List Event) : Server :=
  Runs.run (step site) server events

end Server

/-- A frontend of one page, for concrete runs. -/
def Frontend.small : Frontend where
  entry name :=
    if name = ascii "index.html" then
      some (.file (headStart ++ ascii "<title>Haste</title>" ++ headEnd))
    else none

/-- Files in full, and nothing else. -/
def NetHTTP.small : NetHTTP where
  serveContent _ header _ content :=
    { status := 200, header := header, body := content }
  reply _ _ header := { status := 404, header := header, body := [] }

/-- A site that lets one address store five pastes at once. -/
def Site.small : Site where
  settings := .standard
  config := .unset
  stats := { mode := .statsOff, token := [] }
  rps := 1
  burst := 5
  texts := .small
  encoders := .small
  frontend := .small
  net := .small
  queryLimit := 0

/-- The options of a small store under the reserved words of the routes. -/
def smallOptions : Store.Options :=
  { Store.Options.small with
    ids := Id.newGenerator (fun _ => Vector.replicate 32 0) 1 reservedCodes }

/-- A request without a query, a header or an escape in its path. -/
def HttpRequest.plain
    (method : String)
    (path sent : Bytes)
    (noPercent : 0x25 ∉ path) : HttpRequest where
  method := ascii method
  escapedPath := path
  path := path
  unescapes := pathUnescape_of_notMem noPercent
  rawQuery := []
  host := ascii "localhost:8080"
  tls := false
  header := Header.empty
  remoteAddr := ascii "192.0.2.1:1234"
  sent := sent
  breaksOff := false

/-- A request that nothing disturbs, at this instant. -/
def Occasion.calm (instant : Int) : Occasion where
  calledAt := instant
  env := .calm instant
  shownAt := instant
  scanFails := false

/-! ## The store behind the requests -/

/-- The envelope that gets as far as the store, if one does. -/
def Request.submitted
    (unmarshal : Bytes → Option CreateRequest)
    (request : Request) : Option CreateRequest :=
  match request.allowed, request.body, envelopeOnlyParam request.query with
  | true, .ok body, none => decodeBody unmarshal request.contentType body
  | _, _, _ => none

section Submitted

variable
  {unmarshal : Bytes → Option CreateRequest}
  {request : Request}
  (options : Store.Options)
  (env : Store.Env)
  (db : Store.Database)

/-- A request that does not get there is refused, and nothing changes. -/
theorem create_of_not_submitted
    (turnedAway : request.submitted unmarshal = none) :
    ∃ error, create unmarshal options request env db = (.error error, db) ∧
      400 ≤ error.status := by
  unfold create
  cases allowed : request.allowed with
  | false => exact ⟨_, rfl, by decide⟩
  | true =>
      simp only [Bool.true_eq_false, if_false]
      cases isBody : request.body with
      | error error =>
          cases error with
          | tooLarge => exact ⟨_, rfl, by decide⟩
          | unreadable => exact ⟨_, rfl, by decide⟩
      | ok body =>
          cases setting : envelopeOnlyParam request.query with
          | some name => exact ⟨_, rfl, le_rfl⟩
          | none =>
              have undecoded : decodeBody unmarshal request.contentType body =
                  none := by
                simpa [Request.submitted, allowed, isBody, setting]
                  using turnedAway
              simp only [undecoded]
              exact ⟨_, rfl, by decide⟩

/-- Any other is answered by the store. -/
theorem create_of_submitted
    {envelope : CreateRequest}
    (submitted : request.submitted unmarshal = some envelope) :
    create unmarshal options request env db =
      match Store.create options env envelope.toStore db with
      | (.ok paste, next) => (.ok (paste, envelope.content), next)
      | (.error error, next) => (.error (fail error), next) := by
  unfold Request.submitted at submitted
  split at submitted
  case h_2 => cases submitted
  case h_1 body allowed isBody setting =>
    rcases stored : Store.create options env envelope.toStore db with
      ⟨_ | _, next⟩
    · simp only [create, allowed, isBody, setting, submitted, stored,
        Bool.true_eq_false, if_false]
    · simp only [create, allowed, isBody, setting, submitted, stored,
        Bool.true_eq_false, if_false]

theorem fail_status (error : Store.Error) : 400 ≤ (fail error).status := by
  cases error <;> simp [fail, writeError]

/-- A create request that is refused is answered with the status of an error. -/
theorem create_error_status
    {error : ErrorResponse}
    {next : Store.Database}
    (refused : create unmarshal options request env db = (.error error, next)) :
    400 ≤ error.status := by
  cases submitted : request.submitted unmarshal with
  | none =>
      obtain ⟨other, isRefused, status⟩ :=
        create_of_not_submitted options env db submitted
      rw [refused] at isRefused
      cases isRefused
      exact status
  | some envelope =>
      rw [create_of_submitted options env db submitted] at refused
      split at refused
      · cases refused
      · cases refused
        exact fail_status _

/-- What a create request leaves is what the store leaves. -/
theorem create_database :
    (create unmarshal options request env db).2 =
      match request.submitted unmarshal with
      | none => db
      | some envelope => (Store.create options env envelope.toStore db).2 := by
  cases submitted : request.submitted unmarshal with
  | none =>
      obtain ⟨error, refused, -⟩ :=
        create_of_not_submitted options env db submitted
      rw [refused]
  | some envelope =>
      rw [create_of_submitted options env db submitted]
      simp only
      rcases Store.create options env envelope.toStore db with ⟨_ | _, next⟩
      · rfl
      · rfl

end Submitted

namespace Server

/-- The operation of the store that a handler calls, if it calls one that can
change it. -/
def endpointOps
    (site : Site)
    (server : Server)
    (request : HttpRequest)
    (occasion : Occasion)
    (endpoint : Endpoint)
    (code : Bytes) : List Store.Op :=
  match endpoint with
  | .create | .legacyCreate =>
      ((server.asked site request occasion).submitted unmarshal).toList.map
        fun envelope => .create occasion.env envelope.toStore
  | .read | .raw | .download | .legacyRead => [.get occasion.env code]
  | _ => []

/-- The operations of the store behind an event. -/
def ops (site : Site) (server : Server) : Event → List Store.Op
  | .background background => [background.op]
  | .request request occasion =>
      match server.system, reached request with
      | .opened _, some (endpoint, code) =>
          server.endpointOps site request occasion endpoint code
      | _, _ => []

/-- The operations of the store behind a run. -/
abbrev trace (site : Site) (server : Server) (events : List Event) :
    List Store.Op :=
  Runs.behind (step site) (fun server => server.ops site) server events

/-- A file is opened again only with options that relate to the last ones. -/
def ReopensWith
    (related : Store.Options → Store.Options → Prop)
    (server : Server) : Event → Prop
  | .background (.openFile options stopped) =>
      Store.System.ReopensWith related server.system (.openFile options stopped)
  | _ => True

section Trace

variable {site : Site} {server : Server}

theorem next_system
    {store : Store.OpenStore}
    (isOpen : server.system = .opened store)
    (request : HttpRequest)
    (occasion : Occasion)
    (endpoint : Endpoint)
    (code : Bytes) :
    (server.next site store request occasion endpoint code).system =
      server.system.run
        (server.endpointOps site request occasion endpoint code) := by
  have creates : ∀ ops, ops =
      ((server.asked site request occasion).submitted unmarshal).toList.map
        (fun envelope => Store.Op.create occasion.env envelope.toStore) →
      Store.System.opened
          { store with db := (server.made site store request occasion).2 } =
        server.system.run ops := by
    rintro _ rfl
    rw [isOpen, made, create_database]
    cases (server.asked site request occasion).submitted unmarshal with
    | none => rfl
    | some envelope =>
        simp only [Option.toList_some, List.map_singleton, Runs.run_cons,
          Runs.run_nil, Store.System.step, Store.System.perform,
          Store.System.onStore, Store.OpenStore.create]
        rcases Store.create store.options occasion.env envelope.toStore store.db
          with ⟨_ | _, next⟩
        · rfl
        · rfl
  cases endpoint with
  | create | legacyCreate => exact creates _ rfl
  | _ => rfl

/-- The requests of a server act on its store as operations of it. -/
theorem step_system (event : Event) :
    (server.step site event).system =
      server.system.run (server.ops site event) := by
  cases event with
  | background background =>
      cases background with
      | openFile options stopped =>
          cases isSystem : server.system with
          | closed file last => simp [step, ops, start, isSystem, Background.op]
          | opened store =>
              simp only [step, ops, isSystem, Background.op]
              rfl
      | _ => rfl
  | request request occasion =>
      cases isSystem : server.system with
      | closed file last => simp [step, afterRequest, ops, isSystem]
      | opened store =>
          cases isReached : reached request with
          | none => simp [step, afterRequest, ops, isSystem, isReached]
          | some handled =>
              have moved := @next_system site _ _ isSystem request occasion
                handled.1 handled.2
              simp only [step, afterRequest, ops, isSystem, isReached]
              rw [← isSystem]
              exact moved

theorem run_system (events : List Event) :
    (server.run site events).system =
      server.system.run (trace site server events) :=
  Runs.part_run (fun _ event _ => step_system event)
    (Runs.each_of_forall fun _ _ => trivial)

/-- Only opening a file is restricted. -/
theorem reopensWith_of_ne
    (related : Store.Options → Store.Options → Prop)
    (system : Store.System)
    {op : Store.Op}
    (other : ∀ options stopped, op ≠ .openFile options stopped) :
    Store.System.ReopensWith related system op := by
  unfold Store.System.ReopensWith
  split
  · exact absurd rfl (other _ _)
  · trivial

/-- The operations behind a request do not open a file. -/
theorem ne_openFile_of_mem_endpointOps
    {request : HttpRequest}
    {occasion : Occasion}
    {endpoint : Endpoint}
    {code : Bytes}
    {op : Store.Op}
    (listed : op ∈ server.endpointOps site request occasion endpoint code)
    (options : Store.Options)
    (stopped : Option Nat) :
    op ≠ .openFile options stopped := by
  rintro rfl
  cases endpoint with
  | create | legacyCreate =>
      obtain ⟨envelope, -, impossible⟩ := List.mem_map.mp listed
      cases impossible
  | read | raw | download | legacyRead =>
      cases List.mem_singleton.mp listed
  | _ => cases listed

/-- What an event admits, the operations behind it do. -/
theorem each_ops
    {related : Store.Options → Store.Options → Prop}
    {event : Event}
    (reopens : server.ReopensWith related event) :
    Runs.Each Store.System.step (Store.System.ReopensWith related) server.system
      (server.ops site event) := by
  cases event with
  | background background =>
      refine ⟨?_, trivial⟩
      cases background with
      | openFile options stopped => exact reopens
      | _ => exact reopensWith_of_ne related _ fun _ _ => nofun
  | request request occasion =>
      refine Runs.each_of_forall_mem fun op listed system => ?_
      simp only [ops] at listed
      split at listed
      · exact reopensWith_of_ne related system
          (ne_openFile_of_mem_endpointOps listed)
      · cases listed

theorem each_trace
    {related : Store.Options → Store.Options → Prop}
    {events : List Event}
    (reopens : Runs.Each (step site) (ReopensWith related) server events) :
    Runs.Each Store.System.step (Store.System.ReopensWith related) server.system
      (trace site server events) :=
  Runs.each_behind (fun _ event _ => step_system event)
    (fun _ _ => each_ops) reopens

end Trace

end Server

end HttpApi
end Haste
