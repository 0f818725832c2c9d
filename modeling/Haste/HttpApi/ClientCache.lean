import Haste.Foundation.Validator
import Haste.HttpApi.Recorded

/-!
# A client that revalidates

A client may keep the document it was sent for a path, and offer its tag with the
next request.  The tag is computed from the document before it is compressed, so
a server that answers 304 would otherwise have sent the same document again, or
another one with the same hash.
-/

namespace Haste
namespace HttpApi

open Go
open Foundation

/-- The request with the tag of a kept document, if there is one. -/
def HttpRequest.offering (request : HttpRequest) : Option Bytes → HttpRequest
  | none => request
  | some tag =>
      { request with header := request.header.set "If-None-Match" tag }

/-- The paths that a handler answers itself, and not the server of files. -/
def Site.Answers (site : Site) (escapedPath : Bytes) : Prop :=
  ∃ endpoint code path, mux (ascii "GET") escapedPath = .handled endpoint code ∧
    pathUnescape escapedPath = some path ∧
    (endpoint = .ui → ∀ content,
      site.frontend.entry (trimPrefix (pathClean path) (ascii "/")) ≠
        some (.file content))

/-- A response is this document, or the news that the tag offered names it. -/
structure Response.Represents
    (encoders : Encoders)
    (ifNoneMatch body : Bytes)
    (response : Response) : Prop where
  revalidated : response.status = 304 →
    etagMatches ifNoneMatch (encoders.etagFor body) = true
  sent : response.status ≠ 304 → response.decoded encoders = some body
  tagged : response.status = 200 → response.header.get "Etag" = [] ∨
    IsReceived (response.header.get "Etag") (encoders.etagFor body)

/-! ## One response -/

/-- The response to a `GET` that passes through `buffered`. -/
theorem represents_buffered
    {encoders : Encoders}
    {outer : Header}
    {request : Incoming}
    {written : Response}
    (outerPlain : outer.values "Content-Encoding" = [])
    (proper : written.Proper)
    (isGet : request.method = ascii "GET") :
    (buffered encoders outer request written).Represents encoders
      (request.header.get "If-None-Match") written.body := by
  have notHead : request.method ≠ ascii "HEAD" := by
    rw [isGet]
    decide
  have plain : (outer.merge written.header).values "Content-Encoding" = [] := by
    rw [Header.values_merge, proper.header _ (by decide), if_pos rfl, outerPlain]
  by_cases revalidates : Revalidates encoders request written
  · have status : (buffered encoders outer request written).status = 304 := by
      rw [buffered_of_revalidates revalidates]
    refine ⟨fun _ => ?_, fun changed => absurd status changed, fun ok => ?_⟩
    · exact (etagMatches_iff (encoders.etagFor_isQuoted _)).mpr revalidates.2.2
    · rw [status] at ok
      cases ok
  · have status : (buffered encoders outer request written).status =
        written.status :=
      (buffered_status_eq revalidates).trans proper.sentStatus
    refine ⟨fun unchanged => ?_, fun _ => buffered_decoded plain revalidates notHead,
      fun ok => Or.inr ?_⟩
    · have isStatus := proper.status
      rw [← status, unchanged] at isStatus
      omega
    · refine buffered_etag ((isRead_iff request).mpr (Or.inl isGet)) ?_
      rw [proper.sentStatus, ← status, ok]

/-- A response that is written as it is, without a tag. -/
theorem represents_untagged
    {encoders : Encoders}
    {response : Response}
    (plain : response.header.values "Content-Encoding" = [])
    (untagged : response.header.values "Etag" = [])
    (changed : response.status ≠ 304)
    (ifNoneMatch : Bytes) :
    response.Represents encoders ifNoneMatch response.body where
  revalidated unchanged := absurd unchanged changed
  sent _ := (shows_of_plain plain).2
  tagged _ := Or.inl (by rw [Header.get, untagged]; rfl)

/-- The response to a `GET` of the shell. -/
theorem represents_serveIndex
    (site : Site)
    (request : HttpRequest)
    {outer : Header}
    (outerPlain : outer.values "Content-Encoding" = [])
    (described : Bytes → Option Store.Paste)
    (now : Int) :
    (serveIndex site request outer described now).Represents site.encoders
      (request.header.get "If-None-Match")
      (match site.frontend.shell with
        | none => uiMissingPage
        | some shell => shell.render (request.pageCode.bind described) now) := by
  unfold serveIndex
  cases site.frontend.shell with
  | none =>
      refine ⟨(fun unchanged => by cases unchanged), fun _ => ?_,
        (fun ok => by cases ok)⟩
      rw [Response.decoded, if_pos (by simp [outerPlain])]
  | some shell =>
      simp only
      split
      case isTrue matched =>
        exact ⟨fun _ => matched, fun changed => absurd rfl changed,
          (fun ok => by cases ok)⟩
      case isFalse =>
        refine ⟨(fun unchanged => by cases unchanged), fun _ => ?_, fun _ => ?_⟩
        · rw [Response.decoded, if_pos]
          split <;> simp [noIndex, outerPlain]
        · refine Or.inr (Or.inl ?_)
          simp [Header.get]

/-- The document that `handleUI` has for a path that is not that of a file. -/
def uiDocument
    (site : Site)
    (request : HttpRequest)
    (described : Bytes → Option Store.Paste)
    (now : Int) : Bytes :=
  let name := request.fileName
  if ¬(name = [] ∨ name = ascii ".") ∧
      contains (pathBase name) (ascii ".") = true then
    (writeError 404 "not_found" "no such file").write.body
  else match site.frontend.shell with
    | none => uiMissingPage
    | some shell => shell.render (request.pageCode.bind described) now

/-- The response of the frontend to a `GET` of no file. -/
theorem represents_handleUI
    (site : Site)
    (request : HttpRequest)
    {outer : Header}
    (outerPlain : outer.values "Content-Encoding" = [])
    (outerUntagged : outer.values "Etag" = [])
    (notFile : ∀ content,
      site.frontend.entry request.fileName ≠ some (.file content))
    (described : Bytes → Option Store.Paste)
    (now : Int) :
    (handleUI site request outer described now).Represents site.encoders
      (request.header.get "If-None-Match")
      (uiDocument site request described now) := by
  have index := represents_serveIndex site request outerPlain described now
  by_cases isIndex : request.fileName = [] ∨ request.fileName = ascii "."
  · have isServed : handleUI site request outer described now =
        serveIndex site request outer described now := if_pos isIndex
    have isPage : uiDocument site request described now = _ :=
      if_neg fun asset => asset.1 isIndex
    rw [isServed, isPage]
    exact index
  · have isMissing : handleUI site request outer described now =
        missingUIFile site request outer described now request.fileName := by
      simp only [handleUI, if_neg isIndex]
    by_cases isAsset : contains (pathBase request.fileName) (ascii ".") = true
    · have isError : uiDocument site request described now = _ :=
        if_pos ⟨isIndex, isAsset⟩
      rw [isMissing, missingUIFile, if_pos isAsset, isError]
      exact @represents_untagged site.encoders
        ((writeError 404 "not_found" "no such file").writeOver outer)
        (by simp [ErrorResponse.writeOver, ErrorResponse.write, writeJSON,
          writeError, Header.values_merge, outerPlain])
        (by simp [ErrorResponse.writeOver, ErrorResponse.write, writeJSON,
          writeError, Header.values_merge, outerUntagged])
        (show (404 : Nat) ≠ 304 by decide) _
    · have isPage : uiDocument site request described now = _ :=
        if_neg fun asset => isAsset asset.2
      rw [isMissing, missingUIFile, if_neg isAsset, isPage]
      exact index

/-! ## What the tag offered changes -/

section Offering

variable {site : Site} {server : Server} {store : Store.OpenStore}
  (request : HttpRequest) (tag : Option Bytes)
  (occasion : Occasion) {endpoint : Endpoint} (code : Bytes)

namespace HttpRequest

@[simp] theorem offering_method :
    (request.offering tag).method = request.method := by
  cases tag <;> rfl

@[simp] theorem offering_escapedPath :
    (request.offering tag).escapedPath = request.escapedPath := by
  cases tag <;> rfl

@[simp] theorem offering_path : (request.offering tag).path = request.path := by
  cases tag <;> rfl

theorem offering_get
    {name : String}
    (other : name ≠ "If-None-Match") :
    (request.offering tag).header.get name = request.header.get name := by
  cases tag with
  | none => rfl
  | some tag => simp [offering, Header.get, other]

end HttpRequest

/-- The share URLs do not depend on it. -/
theorem baseURL_offering (config : Config) :
    baseURL config ((request.offering tag).incoming code) =
      baseURL config (request.incoming code) := by
  have proto : ((request.offering tag).incoming code).header.get
      "X-Forwarded-Proto" =
        (request.incoming code).header.get "X-Forwarded-Proto" :=
    request.offering_get tag (by decide)
  have host : ((request.offering tag).incoming code).host =
      (request.incoming code).host := by
    cases tag <;> rfl
  have tls : ((request.offering tag).incoming code).tls =
      (request.incoming code).tls := by
    cases tag <;> rfl
  unfold baseURL
  rw [proto, host, tls]

theorem handle_offering
    (route : Route)
    (config : Config)
    (texts : Texts)
    (now : Int)
    (answer : Except Store.Error (Store.Paste × Bytes)) :
    route.handle config texts now ((request.offering tag).incoming code) answer =
      route.handle config texts now (request.incoming code) answer := by
  cases answer with
  | error error => rfl
  | ok served =>
      cases route with
      | read => simp only [Route.handle, handleRead, baseURL_offering]
      | _ => rfl

theorem handleStats_offering
    (settings : StatsSettings)
    (texts : Texts)
    (now : Int)
    (scan : Except Unit Store.Stats)
    (cache : Cache Store.Stats) :
    handleStats settings texts now ((request.offering tag).incoming code) scan
        cache =
      handleStats settings texts now (request.incoming code) scan cache := by
  have authorization :=
    request.offering_get tag (show "Authorization" ≠ _ by decide)
  have authorized : statsAuthorized settings
      ((request.offering tag).incoming code) =
        statsAuthorized settings (request.incoming code) := by
    simp only [statsAuthorized, HttpRequest.incoming, authorization]
  simp only [handleStats, authorized]

/-- No handler of a `GET` looks at it. -/
theorem recorded_offering
    (notCreate : ¬(endpoint = .create ∨ endpoint = .legacyCreate)) :
    server.recorded site store (request.offering tag) occasion endpoint code =
      server.recorded site store request occasion endpoint code := by
  cases endpoint with
  | create => exact absurd (Or.inl rfl) notCreate
  | legacyCreate => exact absurd (Or.inr rfl) notCreate
  | stats => simp only [Server.recorded, handleStats_offering]
  | read | raw | download => simp only [Server.recorded, handle_offering]
  | _ => rfl

theorem next_offering
    (notCreate : ¬(endpoint = .create ∨ endpoint = .legacyCreate)) :
    server.next site store (request.offering tag) occasion endpoint code =
      server.next site store request occasion endpoint code := by
  cases endpoint with
  | create => exact absurd (Or.inl rfl) notCreate
  | legacyCreate => exact absurd (Or.inr rfl) notCreate
  | stats => simp only [Server.next, handleStats_offering]
  | _ => rfl

theorem uiDocument_offering
    (described : Bytes → Option Store.Paste)
    (now : Int) :
    uiDocument site (request.offering tag) described now =
      uiDocument site request described now := by
  cases tag <;> rfl

/-- A revalidation moves the server as the plain request does. -/
theorem step_offering (isGet : request.method = ascii "GET") :
    server.step site (.request (request.offering tag) occasion) =
      server.step site (.request request occasion) := by
  have preflight : ∀ request : HttpRequest, request.method = ascii "GET" →
      Server.isPreflight request = false := by
    intro request isGet
    simp +decide [Server.isPreflight, isGet]
  have reached : Server.reached (request.offering tag) =
      Server.reached request := by
    simp only [Server.reached, HttpRequest.offering_method,
      HttpRequest.offering_escapedPath,
      preflight (request.offering tag) (by simpa using isGet),
      preflight request isGet]
  simp only [Server.step, Server.afterRequest, reached]
  cases server.system with
  | closed file last => rfl
  | opened store =>
      cases isReached : Server.reached request with
      | none => rfl
      | some handled =>
          refine next_offering request tag occasion handled.2 ?_
          intro isCreate
          rw [Server.reached, preflight request isGet] at isReached
          simp only [Bool.false_eq_true, if_false] at isReached
          split at isReached
          case h_1 endpoint code routed =>
            cases isReached
            rw [isGet] at routed
            exact absurd (method_of_mux_create isCreate routed) (by decide)
          case h_2 => cases isReached

/-- A `GET` of a path that a handler answers has one document, whatever tag is
offered. -/
theorem answer_represents
    (isOpen : server.system = .opened store)
    (isGet : request.method = ascii "GET")
    (answers : site.Answers request.escapedPath) :
    ∃ body, ∀ tag, ∃ response,
      server.answer site (request.offering tag) occasion = some response ∧
      response.Represents site.encoders
        ((request.offering tag).header.get "If-None-Match") body := by
  obtain ⟨endpoint, code, path, routed, unescaped, notFile⟩ := answers
  have isPath : request.path = path :=
    Option.some.inj (request.unescapes.symm.trans unescaped)
  have notCreate : ¬(endpoint = .create ∨ endpoint = .legacyCreate) :=
    fun isCreate => absurd (method_of_mux_create isCreate routed) (by decide)
  have answered : ∀ tag, server.answer site (request.offering tag) occasion =
      some (server.output site store (request.offering tag) occasion endpoint code
        (outerHeader site (request.offering tag))) := by
    intro tag
    refine Server.answer_handled isOpen ?_ ?_ ?_
    · rw [request.offering_method, isGet]
      decide
    · rw [request.offering_method, isGet]
      decide
    · rw [request.offering_method, request.offering_escapedPath, isGet]
      exact routed
  have outerPlain : ∀ tag, (outerHeader site (request.offering tag)).values
      "Content-Encoding" = [] := fun _ => outerHeader_unset (by decide) _ _
  have outerUntagged : ∀ tag, (outerHeader site (request.offering tag)).values
      "Etag" = [] := fun _ => outerHeader_unset (by decide) _ _
  cases isRecorded : server.recorded site store request occasion endpoint code with
  | some written =>
      refine ⟨written.body, fun tag => ⟨_, answered tag, ?_⟩⟩
      rw [output_of_recorded
        ((recorded_offering request tag occasion code notCreate).trans isRecorded)]
      exact @represents_buffered site.encoders _
        ((request.offering tag).incoming code) written (outerPlain tag)
        (recorded_proper isRecorded) ((request.offering_method tag).trans isGet)
  | none =>
      cases endpoint with
      | health =>
          refine ⟨(handleHealth Header.empty).body, fun tag =>
            ⟨_, answered tag, ?_⟩⟩
          exact @represents_untagged site.encoders
            (handleHealth (outerHeader site (request.offering tag)))
            (by simp [handleHealth, writeJSON, outerPlain])
            (by simp [handleHealth, writeJSON, outerUntagged])
            (show (200 : Nat) ≠ 304 by decide) _
      | ui =>
          refine ⟨uiDocument site request (Server.described store occasion)
            occasion.shownAt, fun tag => ⟨_, answered tag, ?_⟩⟩
          rw [← uiDocument_offering request tag]
          refine represents_handleUI site _ (outerPlain tag) (outerUntagged tag) ?_
            _ _
          rw [HttpRequest.fileName, request.offering_path, isPath]
          exact notFile rfl
      | _ => cases isRecorded

end Offering

/-! ## The client -/

/-- What a client makes of a response: only a 200 with a tag is kept. -/
def Response.reply
    (encoders : Encoders)
    (response : Response) : Validator.Reply Bytes Bytes :=
  if response.status = 304 then .notModified
  else .document
    (if response.status = 200 ∧ response.header.get "Etag" ≠ [] then
      some (response.header.get "Etag")
    else none) ((response.decoded encoders).getD [])

/-- A tag names a document when it is its tag as a client may have received
it. -/
def Encoders.Names (encoders : Encoders) (tag body : Bytes) : Prop :=
  IsReceived tag (encoders.etagFor body)

/-- What happens to a server and one of its clients: the client fetches, or
anything else. -/
inductive ClientEvent
  | fetch (request : HttpRequest) (occasion : Occasion)
  | other (event : Event)

/-- A server, and what a client has kept of it by path. -/
structure Session where
  server : Server
  kept : Validator.Kept Bytes Bytes Bytes

namespace Session

variable (site : Site) (session : Session)

/-- The request of a client, with the tag it has kept for the path. -/
def request (request : HttpRequest) : HttpRequest :=
  request.offering (session.kept.offered request.escapedPath)

/-- What the client shows, if it is answered. -/
def shown (asked : HttpRequest) (occasion : Occasion) : Option Bytes :=
  (session.server.answer site (session.request asked) occasion).bind
    fun response => session.kept.shown asked.escapedPath
      (response.reply site.encoders)

/-- One event. -/
def step : ClientEvent → Session
  | .other event => { session with server := session.server.step site event }
  | .fetch asked occasion =>
      { server :=
          session.server.step site (.request (session.request asked) occasion)
        kept :=
          match session.server.answer site (session.request asked) occasion with
          | none => session.kept
          | some response => session.kept.receive asked.escapedPath
              (response.reply site.encoders) }

/-- A client that has kept nothing yet. -/
def start (server : Server) : Session where
  server := server
  kept := Validator.Kept.empty

/-- A fetch is a plain `GET`. -/
def Plain (_ : Session) : ClientEvent → Prop
  | .fetch request _ => request.method = ascii "GET" ∧
      request.header.get "If-None-Match" = []
  | .other _ => True

end Session

/-- A response to a tag that names some document is an honest reply. -/
theorem Response.Represents.honest
    {encoders : Encoders}
    {ifNoneMatch body : Bytes}
    {response : Response}
    (represents : response.Represents encoders ifNoneMatch body)
    {offered : Option Bytes}
    (isOffered : ifNoneMatch = offered.getD [])
    (named : ∀ tag ∈ offered, ∃ stale, encoders.Names tag stale) :
    Validator.Honest encoders.Names offered body (response.reply encoders) := by
  constructor
  · intro unchanged
    unfold Response.reply at unchanged
    split at unchanged
    case isFalse => cases unchanged
    case isTrue revalidated =>
      have matched := represents.revalidated revalidated
      rw [etagMatches_iff (encoders.etagFor_isQuoted body)] at matched
      cases offered with
      | none =>
          rw [isOffered, ← etagMatches_iff (encoders.etagFor_isQuoted body)]
            at matched
          cases matched
      | some tag =>
          obtain ⟨stale, isStale⟩ := named tag rfl
          rw [isOffered] at matched
          have same := (isStale.listsTag_iff (encoders.etagFor_isQuoted stale)
            (encoders.etagFor_isQuoted body)).mp matched
          refine ⟨tag, rfl, ?_⟩
          unfold Encoders.Names at isStale ⊢
          rwa [← same]
  · intro tag sent isDocument
    unfold Response.reply at isDocument
    split at isDocument
    case isTrue => cases isDocument
    case isFalse changed =>
      rw [represents.sent changed] at isDocument
      cases isDocument
      refine ⟨rfl, ?_⟩
      intro own isOwn
      split at isOwn
      case isTrue isTagged =>
        cases isOwn
        exact (represents.tagged isTagged.1).resolve_left isTagged.2
      case isFalse => cases isOwn

namespace Session

variable {site : Site} {session : Session} {store : Store.OpenStore}
  {asked : HttpRequest}

/-- What is kept of the paths that handlers answer is kept with its tag. -/
abbrev Consistent (site : Site) (session : Session) : Prop :=
  Validator.Consistent site.encoders.Names site.Answers session.kept

/-- A fetch of a path that a handler answers is replied to honestly. -/
theorem Consistent.honest
    (consistent : session.Consistent site)
    (isOpen : session.server.system = .opened store)
    (isGet : asked.method = ascii "GET")
    (unconditional : asked.header.get "If-None-Match" = [])
    (answers : site.Answers asked.escapedPath)
    (occasion : Occasion) :
    ∃ body plain response,
      session.server.answer site asked occasion = some plain ∧
      plain.decoded site.encoders = some body ∧
      session.server.answer site (session.request asked) occasion =
        some response ∧
      Validator.Honest site.encoders.Names
        (session.kept.offered asked.escapedPath) body
        (response.reply site.encoders) := by
  obtain ⟨body, represented⟩ :=
    answer_represents asked occasion isOpen isGet answers
  obtain ⟨plain, isPlain, represents⟩ := represented none
  obtain ⟨response, isResponse, representsKept⟩ :=
    represented (session.kept.offered asked.escapedPath)
  have changed : plain.status ≠ 304 := by
    intro unchanged
    have matched := represents.revalidated unchanged
    rw [show (asked.offering none).header.get "If-None-Match" = []
      from unconditional] at matched
    cases matched
  refine ⟨body, plain, response, isPlain, represents.sent changed, isResponse,
    representsKept.honest ?_ ?_⟩
  · cases session.kept.offered asked.escapedPath with
    | none => exact unconditional
    | some tag => simp [HttpRequest.offering, Header.get]
  · intro tag isOffered
    obtain ⟨⟨own, stale⟩, isKept, rfl⟩ := Option.map_eq_some_iff.mp isOffered
    exact ⟨stale, consistent _ answers _ _ isKept⟩

theorem Consistent.step
    (consistent : session.Consistent site)
    {event : ClientEvent}
    (plain : session.Plain event) :
    (session.step site event).Consistent site := by
  cases event with
  | other event => exact consistent
  | fetch asked occasion =>
      obtain ⟨isGet, unconditional⟩ := plain
      simp only [Consistent, Session.step]
      cases isAnswer : session.server.answer site (session.request asked)
          occasion with
      | none => exact consistent
      | some response =>
          refine consistent.receive fun answers => ?_
          obtain ⟨store, isOpen⟩ := Server.isOpen_of_answer isAnswer
          obtain ⟨body, _, same, _, _, isSame, honest⟩ :=
            consistent.honest isOpen isGet unconditional answers occasion
          rw [isAnswer, Option.some.injEq] at isSame
          subst isSame
          exact ⟨_, body, honest⟩

end Session

/-- After any run of a server and a client of it that revalidates, the client
shows for a path that a handler answers what the full response would hold, unless
a document it has kept has the same hash; and the server is left as the plain
request would leave it. -/
theorem revalidation_shows_current
    {site : Site}
    {server : Server}
    {events : List ClientEvent}
    (plain : Runs.Each (Session.step site) Session.Plain (Session.start server)
      events)
    {store : Store.OpenStore}
    (isOpen : (Runs.run (Session.step site) (Session.start server)
      events).server.system = .opened store)
    {asked : HttpRequest}
    (isGet : asked.method = ascii "GET")
    (unconditional : asked.header.get "If-None-Match" = [])
    (answers : site.Answers asked.escapedPath)
    (occasion : Occasion) :
    let session := Runs.run (Session.step site) (Session.start server) events
    session.server.step site (.request (session.request asked) occasion) =
        session.server.step site (.request asked occasion) ∧
      ∃ response body,
        session.server.answer site asked occasion = some response ∧
        response.decoded site.encoders = some body ∧
        (session.shown site asked occasion = some body ∨
          ∃ tag stale, session.kept asked.escapedPath = some (tag, stale) ∧
            stale ≠ body ∧
            site.encoders.etagFor stale = site.encoders.etagFor body) := by
  intro session
  have consistent : session.Consistent site :=
    Runs.invariant_run (fun session => Session.Consistent site session)
      (fun _ _ consistent plain => consistent.step plain)
      (Validator.consistent_empty _ _) plain
  obtain ⟨body, response, revalidated, isResponse, decoded, isRevalidated,
    honest⟩ := consistent.honest isOpen isGet unconditional answers occasion
  refine ⟨step_offering asked _ occasion isGet, response, body, isResponse,
    decoded, ?_⟩
  have isShown : session.shown site asked occasion =
      session.kept.shown asked.escapedPath (revalidated.reply site.encoders) := by
    rw [Session.shown, isRevalidated]
    rfl
  rw [isShown]
  refine (consistent.shown answers honest).imp_right ?_
  rintro ⟨tag, stale, isKept, isOther, namesStale, namesBody⟩
  have ofStale := namesStale.trimPrefix_eq (site.encoders.etagFor_isQuoted stale)
  have ofBody := namesBody.trimPrefix_eq (site.encoders.etagFor_isQuoted body)
  exact ⟨tag, stale, isKept, isOther, ofStale.symm.trans ofBody⟩

/-- The text of a paste, fetched again and not sent again. -/
theorem revalidation_shows_current_small :
    let creating := HttpRequest.plain "POST" (ascii "/api/pastes") (ascii "a")
      (by decide)
    let reading := HttpRequest.plain "GET" (ascii "/raw/0") [] (by decide)
    let events := [ClientEvent.other (.background (.openFile smallOptions none)),
      .other (.request creating (.calm 0)), .fetch reading (.calm 0)]
    let session := Runs.run (Session.step .small)
      (Session.start (.start .small (.closed .fresh none))) events
    (session.server.answer .small (session.request reading) (.calm 0)).map
        Response.status = some 304 ∧
      session.shown .small reading (.calm 0) = some (ascii "a") := by
  intro creating reading events session
  refine ⟨by decide +kernel, ?_⟩
  have isStatus : (session.server.answer .small reading (.calm 0)).map
      (Response.decoded .small) = some (some (ascii "a")) := by
    decide +kernel
  obtain ⟨_, isAnswer, -⟩ := Option.map_eq_some_iff.mp isStatus
  obtain ⟨store, isOpen⟩ := Server.isOpen_of_answer isAnswer
  have answers : Site.small.Answers (ascii "/raw/0") :=
    ⟨.raw, ascii "0", ascii "/raw/0", by decide +kernel, by decide +kernel,
      fun isUI => by cases isUI⟩
  have plain : Runs.Each (Session.step .small) Session.Plain
      (Session.start (.start .small (.closed .fresh none))) events :=
    ⟨trivial, trivial, ⟨rfl, rfl⟩, trivial⟩
  obtain ⟨-, response, body, isResponse, decoded, shows⟩ :=
    @revalidation_shows_current .small _ events plain store isOpen reading rfl rfl
      answers (.calm 0)
  have isBody : body = ascii "a" := by
    rw [isResponse, Option.map_some, Option.some.injEq] at isStatus
    exact Option.some.inj (decoded.symm.trans isStatus)
  rcases shows with current | ⟨tag, stale, isKept, isOther, -⟩
  · rw [current, isBody]
  · have isStale : (session.kept (ascii "/raw/0")).map Prod.snd =
        some (ascii "a") := by
      decide +kernel
    rw [show session.kept (ascii "/raw/0") = some (tag, stale) from isKept]
      at isStale
    exact absurd ((Option.some.inj isStale).trans isBody.symm) isOther

end HttpApi
end Haste
