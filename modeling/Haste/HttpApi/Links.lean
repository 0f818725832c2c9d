import Haste.HttpApi.Server
import Haste.Store.Durability

/-!
# The addresses of a paste

The response to a create request names a paste by the path of its page, by those
of its text and its file, or by its code alone.  Each of these paths reaches the
handler it is meant for, and what this handler reads is what was stored, so a
client that follows an address is shown the paste or, once a rule of the store
has taken it, the absence of one.
-/

namespace Haste
namespace HttpApi

open Go
open Foundation

/-- The frontend has no file with the name of a code. -/
def Frontend.Unshadowed (frontend : Frontend) : Prop :=
  ∀ name content, frontend.entry name = some (.file content) →
    Id.valid name = false

/-- The text of the error for a code without a paste. -/
def noPasteBody : Bytes :=
  object [field "error" (quote (ascii "not_found")),
    field "message" (quote (ascii "no paste with that code"))]

/-- The status and the document at an address, with the paste and its content if
there is one. -/
def Link.shown
    (link : Link)
    (site : Site)
    (request : HttpRequest)
    (shownAt : Int)
    (found : Option (Store.Paste × Bytes)) : Nat × Bytes :=
  match link, found with
  | .page, found =>
      match site.frontend.shell with
      | none => (503, uiMissingPage)
      | some shell => (200, shell.render (found.map Prod.fst) shownAt)
  | .read, some (paste, content) =>
      (200, ((describe site.texts (baseURL site.config (request.incoming []))
        paste content).encode site.texts).getD [])
  | .raw, some (_, content) => (200, content)
  | .download, some (_, content) => (200, content)
  | .legacyRead, some (paste, content) =>
      (200, object [field "data" (quote content),
        field "key" (quote paste.code)])
  | _, none => (404, noPasteBody)

/-- The status of a response, and its body once decoded. -/
def Response.Shows
    (encoders : Encoders)
    (response : Response)
    (shown : Nat × Bytes) : Prop :=
  response.status = shown.1 ∧ response.decoded encoders = some shown.2

theorem Link.path_page (code : Bytes) : Link.page.path code = 0x2F :: code := by
  simp [path, words, joinPath]

/-- The share URLs of a paste are the base URL with the paths of its
addresses. -/
theorem describe_urls
    (texts : Texts)
    (base : Bytes)
    (paste : Store.Paste)
    (content : Bytes) :
    (describe texts base paste content).url = base ++ Link.page.path paste.code ∧
    (describe texts base paste content).rawURL =
      base ++ Link.raw.path paste.code ∧
    (describe texts base paste content).downloadURL =
      base ++ Link.download.path paste.code := by
  refine ⟨?_, ?_, ?_⟩
  · simp +decide [describe, Link.path, Link.words, joinPath, ascii]
  · simp +decide [describe, Link.path, Link.words, joinPath, ascii]
  · simp +decide [describe, Link.path, Link.words, joinPath, ascii]

/-! ## What the layers around a handler leave of it -/

/-- What the layers around the mux have set of the header. -/
def outerHeader (site : Site) (request : HttpRequest) : Header :=
  corsHeader site.config (request.incoming []) (securityHeaders Header.empty)

theorem outerHeader_unset
    {name : String}
    (other : name ∉ ["X-Content-Type-Options", "Referrer-Policy",
      "X-Frame-Options", "Access-Control-Allow-Origin", "Vary"])
    (site : Site)
    (request : HttpRequest) :
    (outerHeader site request).values name = [] := by
  simp only [List.mem_cons, List.not_mem_nil, not_or, or_false] at other
  obtain ⟨notSniff, notReferrer, notFrame, notAllow, notVary⟩ := other
  rw [outerHeader, corsHeader_values_of_ne notAllow notVary]
  simp [securityHeaders, notSniff, notReferrer, notFrame]

/-- A response that is sent in full shows what the handler has written. -/
theorem buffered_shows
    {encoders : Encoders}
    {outer : Header}
    {request : Incoming}
    {output : Response}
    (outerPlain : outer.values "Content-Encoding" = [])
    (plain : output.header.values "Content-Encoding" = [])
    (fresh : ¬Revalidates encoders request output)
    (notHead : request.method ≠ ascii "HEAD")
    (written : output.status ≠ 0) :
    (buffered encoders outer request output).Shows encoders
      (output.status, output.body) := by
  refine ⟨?_, buffered_decoded ?_ fresh notHead⟩
  · rw [buffered_status_eq fresh, Response.sentStatus, if_neg written]
  · rw [Header.values_merge, if_pos plain, outerPlain]

/-- A body without a `Content-Encoding` is shown as it is. -/
theorem shows_of_plain
    {encoders : Encoders}
    {response : Response}
    (plain : response.header.values "Content-Encoding" = []) :
    response.Shows encoders (response.status, response.body) :=
  ⟨rfl, by rw [Response.decoded, if_pos plain]⟩

section Answers

variable {site : Site} {server : Server} {store : Store.OpenStore}
  {request : HttpRequest} {occasion : Occasion} {code : Bytes}

/-- A request that is no preflight reaches the handler the mux finds. -/
theorem Server.reached_of_mux
    (notOptions : request.method ≠ ascii "OPTIONS")
    {endpoint : Endpoint}
    (routed : mux request.method request.escapedPath = .handled endpoint code) :
    reached request = some (endpoint, code) := by
  simp [reached, isPreflight, notOptions, routed]

theorem Server.mux_of_reached
    {endpoint : Endpoint}
    (isReached : reached request = some (endpoint, code)) :
    ¬(request.method = ascii "OPTIONS" ∧
        request.header.get "Access-Control-Request-Method" ≠ []) ∧
      mux request.method request.escapedPath = .handled endpoint code := by
  unfold reached at isReached
  split at isReached
  case isTrue => cases isReached
  case isFalse notPreflight =>
    split at isReached
    case h_2 => cases isReached
    case h_1 found captured routed =>
      cases isReached
      refine ⟨fun preflight => notPreflight ?_, routed⟩
      simp [isPreflight, preflight.1, preflight.2]

/-- The handler that a request reaches answers it, but without a body to a
`HEAD`. -/
theorem Server.answer_reached
    (isOpen : server.system = .opened store)
    {endpoint : Endpoint}
    (isReached : reached request = some (endpoint, code)) :
    let written := server.output site store request occasion endpoint code
      (outerHeader site request)
    server.answer site request occasion =
      some (if request.method = ascii "HEAD" then { written with body := [] }
        else written) := by
  obtain ⟨notPreflight, routed⟩ := mux_of_reached isReached
  have notPreflight : ¬((request.incoming []).method = ascii "OPTIONS" ∧
      (request.incoming []).header.get "Access-Control-Request-Method" ≠ []) :=
    notPreflight
  simp only [Server.answer, isOpen, cors, if_neg notPreflight, Server.routed,
    routed]
  rfl

theorem Server.answer_handled
    (isOpen : server.system = .opened store)
    (notOptions : request.method ≠ ascii "OPTIONS")
    (notHead : request.method ≠ ascii "HEAD")
    {endpoint : Endpoint}
    (routed : mux request.method request.escapedPath = .handled endpoint code) :
    server.answer site request occasion =
      some (server.output site store request occasion endpoint code
        (outerHeader site request)) := by
  have answered := @answer_reached site _ _ _ occasion _ isOpen _
    (reached_of_mux notOptions routed)
  simpa only [if_neg notHead] using answered

/-- A request is only answered where a store is open. -/
theorem Server.isOpen_of_answer
    {response : Response}
    (answered : server.answer site request occasion = some response) :
    ∃ store, server.system = .opened store := by
  unfold Server.answer at answered
  split at answered
  · cases answered
  · exact ⟨_, ‹_›⟩

variable (site) in
/-- What the page of a code shows. -/
theorem serveIndex_shows
    (unconditional : request.header.get "If-None-Match" = [])
    {outer : Header}
    (outerPlain : outer.values "Content-Encoding" = [])
    (described : Bytes → Option Store.Paste)
    (shownAt : Int) :
    (serveIndex site request outer described shownAt).Shows site.encoders
      (match site.frontend.shell with
        | none => (503, uiMissingPage)
        | some shell =>
            (200, shell.render (request.pageCode.bind described) shownAt)) := by
  unfold serveIndex
  cases site.frontend.shell with
  | none =>
      refine ⟨rfl, ?_⟩
      rw [Response.decoded, if_pos (by simp [outerPlain])]
  | some shell =>
      simp only [unconditional, etagMatches, if_true, Bool.false_eq_true, if_false]
      refine shows_of_plain ?_
      split <;> simp [noIndex, outerPlain]

/-! ## The page of a code -/

section Page

variable (valid : Id.valid code = true)
include valid

/-- The path of a page is unescaped to itself. -/
theorem path_page
    (isPath : request.escapedPath = Link.page.path code) :
    request.path = 0x2F :: code := by
  have plain := plain_of_valid valid
  have noPercent : (0x25 : UInt8) ∉ 0x2F :: code := by
    rw [List.mem_cons, not_or]
    exact ⟨by decide, plain.noPercent⟩
  have unescaped := request.unescapes
  rw [isPath, Link.path_page, pathUnescape_of_notMem noPercent] at unescaped
  exact (Option.some.inj unescaped).symm

theorem pageCode_page
    (isPath : request.escapedPath = Link.page.path code) :
    request.pageCode = some code := by
  have trimmed : trimPrefix (0x2F :: code) (ascii "/") = code := by
    simp +decide [trimPrefix, hasPrefix, ascii]
  rw [HttpRequest.pageCode, path_page valid isPath]
  simp only [trimmed, valid, if_true]

/-- The frontend is asked for a file with the name of the code. -/
theorem fileName_page
    (isPath : request.escapedPath = Link.page.path code) :
    request.fileName = code := by
  have joined : 0x2F :: code = joinPath [code] := by simp [joinPath]
  have clean : pathClean (0x2F :: code) = 0x2F :: code := by
    rw [joined]
    exact pathClean_joinPath
      (fun segment listed => by
        rw [List.mem_singleton.mp listed]
        exact (plain_of_valid valid).toSeparate)
      (by simp)
  rw [HttpRequest.fileName, path_page valid isPath, clean]
  simp +decide [trimPrefix, hasPrefix, ascii]

theorem pathBase_code : pathBase code = code := by
  have plain := plain_of_valid valid
  have trimmed : code.rdropWhile (· == 0x2F) = code := by
    rw [List.rdropWhile_eq_self_iff]
    intro nonempty isSlash
    have last := List.getLast_mem nonempty
    rw [beq_iff_eq.mp isSlash] at last
    exact plain.noSlash last
  have whole : code.rtakeWhile (· != 0x2F) = code := by
    rw [List.rtakeWhile_eq_self_iff]
    intro byte listed
    rw [bne_iff_ne]
    rintro rfl
    exact plain.noSlash listed
  simp only [pathBase, trimmed, whole, if_neg plain.ne_nil]

/-- A code does not look like the name of a file. -/
theorem not_contains_dot : contains code (ascii ".") = false := by
  rw [contains, decide_eq_false_iff_not]
  intro inside
  obtain ⟨-, -, base62⟩ := (Id.valid_iff code).mp valid
  have isDigit := base62 0x2E (inside.subset (by decide))
  exact absurd isDigit (by decide)

end Page

/-- A request for an address of a code is answered with what is found under the
code. -/
theorem answer_link
    (isOpen : server.system = .opened store)
    (unshadowed : site.frontend.Unshadowed)
    (valid : Id.valid code = true)
    (unreserved : code ≠ ascii "healthz")
    {link : Link}
    (isGet : request.method = ascii "GET")
    (isPath : request.escapedPath = link.path code)
    (unconditional : request.header.get "If-None-Match" = [])
    {found : Option (Store.Paste × Bytes)}
    (got : Store.get store.options occasion.env code store.db =
      found.elim (.error .notFound) .ok)
    (described : Store.metadata store.options occasion.env code store.db =
      (found.map Prod.fst).elim (.error .notFound) .ok) :
    ∃ shown, server.answer site request occasion = some shown ∧
      shown.Shows site.encoders
        (link.shown site request occasion.shownAt found) := by
  have routed : mux request.method request.escapedPath =
      .handled link.endpoint (link.captured code) := by
    rw [isGet, isPath]
    exact Link.mux_path valid unreserved link
  refine ⟨_, Server.answer_handled isOpen (by rw [isGet]; decide)
    (by rw [isGet]; decide) routed, ?_⟩
  have outerPlain : (outerHeader site request).values "Content-Encoding" = [] :=
    outerHeader_unset (by decide) site request
  have fresh : ∀ (code : Bytes) (output : Response),
      ¬Revalidates site.encoders (request.incoming code) output :=
    fun _ _ => not_revalidates_of_unconditional unconditional
  have notHead : ∀ code : Bytes, (request.incoming code).method ≠ ascii "HEAD" := by
    intro code
    change request.method ≠ _
    rw [isGet]
    decide
  have isFound : Server.found store occasion code =
      found.elim (.error .notFound) .ok := got
  let handled := fun route : Route => route.handle site.config site.texts
    occasion.shownAt (request.incoming code) (found.elim (.error .notFound) .ok)
  have served : ∀ route, (buffered site.encoders (outerHeader site request)
      (request.incoming code) (handled route)).Shows site.encoders
        ((handled route).status, (handled route).body) := by
    intro route
    refine buffered_shows outerPlain (Route.handle_unset (by decide) _ _ _ _ _ _)
      (fresh code _) (notHead code) ?_
    cases found with
    | none => exact show (404 : Nat) ≠ 0 by decide
    | some found =>
        have ok : (handled route).status = 200 :=
          (route.handle_ok _ _ _ _ found.1 found.2).1
        rw [ok]
        decide
  cases link with
  | page =>
      have isDescribed : request.pageCode.bind
          (Server.described store occasion) = found.map Prod.fst := by
        rw [pageCode_page valid isPath, Option.bind_some, Server.described,
          described]
        cases found with
        | none => rfl
        | some found => rfl
      have page := serveIndex_shows site unconditional outerPlain
        (Server.described store occasion) occasion.shownAt
      rw [isDescribed] at page
      have missing : missingUIFile site request (outerHeader site request)
          (Server.described store occasion) occasion.shownAt code =
            serveIndex site request (outerHeader site request)
              (Server.described store occasion) occasion.shownAt := by
        rw [missingUIFile, pathBase_code valid, not_contains_dot valid]
        rfl
      have notIndex : ¬(code = [] ∨ code = ascii ".") := by
        rintro (rfl | rfl)
        · exact absurd valid (by decide)
        · exact absurd valid (by decide)
      simp only [Server.output, Server.recorded, Link.endpoint, reduceCtorEq, if_false,
        handleUI, fileName_page valid isPath,
        if_neg notIndex]
      split
      case h_1 content isFile =>
        rw [unshadowed code content isFile] at valid
        cases valid
      case h_2 =>
        rw [missing]
        exact page
  | read =>
      simp only [Server.output, Server.recorded, Link.endpoint, Link.captured, isFound]
      cases found with
      | none => exact served .read
      | some found => exact served .read
  | raw =>
      simp only [Server.output, Server.recorded, Link.endpoint, Link.captured, isFound]
      cases found with
      | none => exact served .raw
      | some found => exact served .raw
  | download =>
      simp only [Server.output, Server.recorded, Link.endpoint, Link.captured, isFound]
      cases found with
      | none => exact served .download
      | some found => exact served .download
  | legacyRead =>
      simp only [Server.output, Server.recorded, Link.endpoint, Link.captured, isFound]
      cases found with
      | none => exact served .read
      | some found =>
          exact buffered_shows outerPlain
            (by simp [handleLegacyRead, writeJSON, noIndex]) (fresh code _)
            (notHead code) (show (200 : Nat) ≠ 0 by decide)

end Answers

/-! ## The response to a create request -/

/-- What the response to a create request says of the paste it has stored. -/
def Announces
    (site : Site)
    (request : HttpRequest)
    (endpoint : Endpoint)
    (paste : Store.Paste)
    (content : Bytes)
    (response : Response) : Prop :=
  let base := baseURL site.config (request.incoming [])
  match endpoint with
  | .create =>
      response.header.values "Location" = [base ++ Link.page.path paste.code] ∧
        response.Shows site.encoders
          (201, ((describe site.texts base paste content).encode
            site.texts).getD [])
  | .legacyCreate =>
      response.Shows site.encoders
        (200, object [field "key" (quote paste.code)])
  | _ => False

/-- A field that neither the tag nor compression sets, in a response that is sent
in full. -/
theorem buffered_values
    {encoders : Encoders}
    {outer : Header}
    {request : Incoming}
    {output : Response}
    {name : String}
    (untouched : name ∉ ["Vary", "Content-Encoding", "Etag", "Content-Length"])
    (fresh : ¬Revalidates encoders request output) :
    (buffered encoders outer request output).header.values name =
      (outer.merge output.header).values name := by
  simp only [List.mem_cons, List.not_mem_nil, not_or, or_false] at untouched
  obtain ⟨notVary, notEncoding, notTag, notLength⟩ := untouched
  rw [buffered_of_not_revalidates fresh, respond,
    Header.values_set_of_ne _ _ _ _ notLength,
    gzipped_values_of_ne notVary notEncoding notTag,
    taggedHeader_values_of_ne notTag]

section Creation

variable {site : Site} {server : Server} {store : Store.OpenStore}
  {request : HttpRequest} {occasion : Occasion} {endpoint : Endpoint}
  {code : Bytes}

/-- A `POST` is never answered from a cache. -/
theorem not_revalidates_of_post
    {encoders : Encoders}
    {incoming : Incoming}
    (isPost : incoming.method = ascii "POST")
    (output : Response) :
    ¬Revalidates encoders incoming output := by
  rintro ⟨isGet | isHead, -⟩
  · rw [isPost] at isGet
    exact absurd isGet (by decide)
  · rw [isPost] at isHead
    exact absurd isHead (by decide)

/-- A create request that is not answered with an error has stored a paste, and
the response names it. -/
theorem announces_of_succeeded
    (isOpen : server.system = .opened store)
    (isCreate : endpoint = .create ∨ endpoint = .legacyCreate)
    (routed : mux request.method request.escapedPath = .handled endpoint code)
    {response : Response}
    (answered : server.answer site request occasion = some response)
    (succeeded : response.status < 400) :
    ∃ paste content,
      (server.made site store request occasion).1 = .ok (paste, content) ∧
      Announces site request endpoint paste content response := by
  have isPost := method_of_mux_create isCreate routed
  have fresh := @not_revalidates_of_post site.encoders (request.incoming code)
    isPost
  have notHead : (request.incoming code).method ≠ ascii "HEAD" := by
    change request.method ≠ _
    rw [isPost]
    decide
  rw [Server.answer_handled isOpen (by rw [isPost]; decide) notHead routed,
    Option.some.injEq] at answered
  subst answered
  have outerPlain : (outerHeader site request).values "Content-Encoding" = [] :=
    outerHeader_unset (by decide) site request
  cases made : (server.made site store request occasion).1 with
  | error error =>
      have status := create_error_status store.options occasion.env store.db
        (Prod.ext made rfl)
      have sent : error.write.sentStatus = error.status :=
        if_neg (show ¬error.status = 0 by omega)
      have refused : (server.output site store request occasion endpoint code
          (outerHeader site request)).status = error.status := by
        rcases isCreate with rfl | rfl
        all_goals
          simp only [Server.output, Server.recorded, made,
            buffered_status_eq (fresh _), sent]
      omega
  | ok stored =>
      obtain ⟨paste, content⟩ := stored
      refine ⟨paste, content, rfl, ?_⟩
      rcases isCreate with rfl | rfl
      · simp only [Server.output, Server.recorded, made, Announces]
        refine ⟨?_, buffered_shows outerPlain
          (by simp [handleCreate, writeJSON]) (fresh _) notHead
          (show (201 : Nat) ≠ 0 by decide)⟩
        rw [buffered_values (by decide) (fresh _), Header.values_merge]
        have location : (handleCreate site.config site.texts
            (request.incoming code) paste content).header.values "Location" =
              [baseURL site.config (request.incoming []) ++
                Link.page.path paste.code] := by
          rw [← (describe_urls site.texts _ paste content).1]
          simp [handleCreate, writeJSON]
          rfl
        rw [location, if_neg (List.cons_ne_nil _ _)]
      · simp only [Server.output, Server.recorded, made, Announces]
        exact buffered_shows outerPlain (by simp [handleLegacyCreate, writeJSON])
          (fresh _) notHead (show (200 : Nat) ≠ 0 by decide)

/-- What a create request has stored, `Create` has answered. -/
theorem created_of_made
    {paste : Store.Paste}
    {content : Bytes}
    (made : (server.made site store request occasion).1 =
      .ok (paste, content)) :
    ∃ envelope,
      (server.asked site request occasion).submitted unmarshal = some envelope ∧
      envelope.content = content ∧
      (Store.System.opened store).answer
        (.create occasion.env envelope.toStore) = .created paste := by
  unfold Server.made at made
  cases submitted :
      (server.asked site request occasion).submitted unmarshal with
  | none =>
      obtain ⟨error, refused, -⟩ := create_of_not_submitted store.options
        occasion.env store.db submitted
      rw [refused] at made
      cases made
  | some envelope =>
      rw [create_of_submitted _ _ _ submitted] at made
      refine ⟨envelope, rfl, ?_⟩
      simp only [Store.System.answer, Store.System.perform,
        Store.System.onStore, Store.OpenStore.create]
      cases stored : Store.create store.options occasion.env envelope.toStore
          store.db with
      | mk result db =>
          rw [stored] at made
          cases result with
          | error error => cases made
          | ok paste => cases made; exact ⟨rfl, rfl⟩

/-- A server that has run is sound. -/
theorem Server.sound_of_run
    {file : Store.File}
    {last : Option Store.Options}
    {events : List Event}
    (started : (Server.start site (.closed file last)).run site events = server)
    (isOpen : server.system = .opened store) :
    (Store.System.opened store).Sound := by
  have reached := @Server.run_system site
    (Server.start site (.closed file last)) events
  rw [started, isOpen] at reached
  exact Store.System.accounted_of_run (Store.System.sound_closed file last)
    reached.symm

/-- What a create request that has stored a paste leaves behind. -/
theorem created_of_request
    (sound : (Store.System.opened store).Sound)
    (isOpen : server.system = .opened store)
    (isCreate : endpoint = .create ∨ endpoint = .legacyCreate)
    (routed : mux request.method request.escapedPath = .handled endpoint code)
    {paste : Store.Paste}
    {content : Bytes}
    (made : (server.made site store request occasion).1 =
      .ok (paste, content)) :
    ∃ envelope db,
      (server.asked site request occasion).submitted unmarshal = some envelope ∧
      envelope.content = content ∧
      Store.Created store.options occasion.env envelope.toStore store.db paste db ∧
      (server.step site (.request request occasion)).system =
        .opened { store with db } ∧
      (server.step site (.request request occasion)).system.Sound := by
  have isPost := method_of_mux_create isCreate routed
  obtain ⟨envelope, submitted, isContent, created⟩ := created_of_made made
  obtain ⟨_, db, same, stepped, isCreated⟩ :=
    Store.System.created_of_answer sound created
  cases same
  have ops : server.ops site (.request request occasion) =
      [.create occasion.env envelope.toStore] := by
    have isReached := Server.reached_of_mux (by rw [isPost]; decide) routed
    simp only [Server.ops, isOpen, isReached]
    rcases isCreate with rfl | rfl
    · simp [Server.endpointOps, submitted]
    · simp [Server.endpointOps, submitted]
  have isNext : (server.step site (.request request occasion)).system =
      .opened { store with db } := by
    rw [Server.step_system, ops, isOpen, ← stepped]
    rfl
  refine ⟨envelope, db, submitted, isContent, isCreated, isNext, ?_⟩
  rw [isNext, ← stepped]
  exact (Store.System.step_spec sound _).1

end Creation

end HttpApi
end Haste
