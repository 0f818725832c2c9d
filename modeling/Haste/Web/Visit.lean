import Haste.Web.Fetch

/-!
# A visit to a paste

A reader's page and the server run side by side.  A request of the page reaches
the server at some moment, and its response reaches the page at a later one, if
at all; between them the reader moves on, other clients write, the store sweeps,
and the process restarts.  Whoever opens the page of a paste after it was created
is never shown anything under its code but what was sent.
-/

namespace Haste
namespace Web

open Go
open Foundation
open HttpApi

/-- A server, and the page of one of its readers with the replies that came back
to its requests. -/
structure Visit where
  server : Server
  page : PastePage
  replies : Nat → Option Reply

/-- What happens to a server and a page. -/
inductive VisitEvent
  /-- Anything else that happens to the server. -/
  | other (event : Event)
  | navigate (code : Bytes)
  | render
  | flush
  /-- A request of the page reaches the server, which the browser may repeat. -/
  | serve (index : Nat) (request : HttpRequest) (occasion : Occasion)
  /-- The browser answers a request by what it has kept of an earlier one. -/
  | reuse (index earlier : Nat)
  /-- The reply to a request reaches the page. -/
  | deliver (index : Nat)
  /-- A request fails on the way. -/
  | lose (index : Nat)

/-- Another code, with the page still mounted. -/
def VisitEvent.isNavigation : VisitEvent → Bool
  | .navigate _ => true
  | _ => false

/-- What happens to the server. -/
def VisitEvent.serverEvents : VisitEvent → List Event
  | .other event => [event]
  | .serve _ request occasion => [.request request occasion]
  | _ => []

namespace Visit

variable (site : Site) (visit : Visit)

/-- The page has just been opened. -/
def start (server : Server) (code : Bytes) (handoff : Option Bytes) : Visit where
  server := server
  page := .mount code handoff
  replies := fun _ => none

/-- What happens to the page. -/
def pageEvents : VisitEvent → List PageEvent
  | .navigate code => [.navigate code]
  | .render => [.render]
  | .flush => [.flush]
  | .deliver index => (visit.replies index).toList.map fun reply =>
      .settle index (Web.request (some reply))
  | .lose index => [.settle index (Web.request none)]
  | _ => []

/-- A reply, if there is one, comes back to a request. -/
def replied (index : Nat) (reply : Option Reply) : Nat → Option Reply :=
  Function.update visit.replies index (reply.or (visit.replies index))

/-- The replies that have come back. -/
def nextReplies : VisitEvent → Nat → Option Reply
  | .serve index request occasion =>
      visit.replied index ((visit.server.answer site request occasion).map
        (.ofResponse site.encoders))
  | .reuse index earlier => visit.replied index (visit.replies earlier)
  | _ => visit.replies

/-- One event. -/
def step (event : VisitEvent) : Visit where
  server := visit.server.run site event.serverEvents
  page := visit.page.run (visit.pageEvents event)
  replies := visit.nextReplies site event

/-- The visit after a run. -/
abbrev run (events : List VisitEvent) : Visit := Runs.run (step site) visit events

/-- What happens to the server in a run. -/
abbrev behind (events : List VisitEvent) : List Event :=
  Runs.behind (step site) (fun _ => VisitEvent.serverEvents) visit events

/-- The file is reopened with options that keep its pastes, a reader goes to codes
that can be asked for, and what reaches the server for a request is a plain `GET`
of its path. -/
def Admits : VisitEvent → Prop
  | .other event => visit.server.ReopensWith Store.Options.KeepsPastes event
  | .navigate code => Fetchable code
  | .serve index request _ =>
      request.method = ascii "GET" ∧ request.header.get "If-None-Match" = [] ∧
        ∃ key, visit.page.requests.keys[index]? = some key ∧
          request.escapedPath = fetchPath key
  | .reuse index earlier => ∃ key,
      visit.page.requests.keys[index]? = some key ∧
        visit.page.requests.keys[earlier]? = some key
  | _ => True

end Visit

/-! ## What is known of a visit -/

/-- All codes of the page can be asked for, and what settled was the reply to its
request or the lack of one. -/
structure PastePage.Known
    (good : Bytes → Reply → Prop)
    (page : PastePage) : Prop where
  code : Fetchable page.code
  rendered : Fetchable page.frame.code
  keys : ∀ key ∈ page.requests.keys, Fetchable key
  answered : page.requests.Answered fun key outcome =>
    ∃ reply, outcome = Web.request reply ∧ ∀ told ∈ reply, good key told

namespace PastePage

variable {page : PastePage} {good : Bytes → Reply → Prop}

theorem code_step (event : PageEvent) :
    (page.step event).code = page.code ∨
      event = .navigate (page.step event).code := by
  cases event with
  | navigate code => exact Or.inr rfl
  | render => exact Or.inl flush_code
  | flush => exact Or.inl flush_code
  | settle index outcome =>
      refine Or.inl ?_
      change (page.settle index outcome).code = _
      unfold settle
      simp only
      split
      · split <;> rfl
      · rfl

theorem frame_step (event : PageEvent) :
    (page.step event).frame.code = page.frame.code ∨
      (page.step event).frame.code = page.code := by
  cases event with
  | navigate code => exact Or.inl rfl
  | render => exact Or.inr flush_code
  | flush => exact Or.inl (congrArg Frame.code flush_frame)
  | settle index outcome =>
      refine Or.inl ?_
      change (page.settle index outcome).frame.code = _
      unfold settle
      simp only
      split
      · split <;> rfl
      · rfl

/-- A key stays under its number. -/
theorem getElem?_keys_step
    {index : Nat}
    {key : Bytes}
    (isKey : page.requests.keys[index]? = some key)
    (event : PageEvent) :
    (page.step event).requests.keys[index]? = some key := by
  rcases keys_step page event with same | more
  · rw [same, isKey]
  · have inside := (List.getElem?_eq_some_iff.mp isKey).1
    rw [more, List.getElem?_append_left inside, isKey]

theorem Known.step
    (known : page.Known good)
    {event : PageEvent}
    (fetchable : ∀ code, event = .navigate code → Fetchable code)
    (arrives : ∀ index outcome, event = .settle index outcome →
      ∃ reply, outcome = Web.request reply ∧ ∀ told ∈ reply,
        ∃ key, page.requests.keys[index]? = some key ∧ good key told) :
    (page.step event).Known good where
  code := by
    rcases code_step event with same | moved
    · rw [same]
      exact known.code
    · exact fetchable _ moved
  rendered := by
    rcases frame_step event with same | rendered
    · rw [same]
      exact known.rendered
    · rw [rendered]
      exact known.code
  keys := by
    rcases keys_step page event with same | more
    · rw [same]
      exact known.keys
    · rw [more]
      intro key listed
      rcases List.mem_append.mp listed with before | last
      · exact known.keys key before
      · rw [List.mem_singleton.mp last]
        exact known.rendered
  answered := by
    refine answered_step known.answered fun index outcome isSettle ticket found => ?_
    obtain ⟨reply, isOutcome, told⟩ := arrives index outcome isSettle
    refine ⟨reply, isOutcome, fun one isOne => ?_⟩
    obtain ⟨key, isKey, isGood⟩ := told one isOne
    obtain ⟨other, isOther, rfl⟩ := Requests.getElem?_keys.mp isKey
    rw [found, Option.some.injEq] at isOther
    rw [isOther]
    exact isGood

end PastePage

namespace Visit

variable {site : Site} {visit : Visit} {good better : Bytes → Reply → Prop}

/-- Besides, each reply on its way is good for the key of its request. -/
structure Sound
    (good : Bytes → Reply → Prop)
    (visit : Visit) : Prop where
  page : visit.page.Known good
  replied : ∀ index reply, visit.replies index = some reply →
    ∃ key, visit.page.requests.keys[index]? = some key ∧ good key reply

theorem sound_start
    {code : Bytes}
    (fetchable : Fetchable code)
    (server : Server)
    (handoff : Option Bytes)
    (good : Bytes → Reply → Prop) :
    (start server code handoff).Sound good where
  page :=
    { code := fetchable
      rendered := fetchable
      keys := fun _ listed => absurd listed List.not_mem_nil
      answered := Requests.answered_empty }
  replied := fun _ _ isReply => by cases isReply

theorem Sound.mono
    (sound : visit.Sound good)
    (implies : ∀ key reply, good key reply → better key reply) :
    visit.Sound better where
  page :=
    { sound.page with
      answered := sound.page.answered.mono fun key _ answered => by
        obtain ⟨reply, isOutcome, told⟩ := answered
        exact ⟨reply, isOutcome, fun one isOne =>
          implies key one (told one isOne)⟩ }
  replied := by
    intro index reply isReply
    obtain ⟨key, isKey, isGood⟩ := sound.replied index reply isReply
    exact ⟨key, isKey, implies key reply isGood⟩

/-- What happens to the page in an event is one step at most. -/
theorem pageEvents_cases (event : VisitEvent) :
    visit.pageEvents event = [] ∨ ∃ pageEvent,
      visit.pageEvents event = [pageEvent] ∧
      (∀ code, pageEvent = .navigate code → event = .navigate code) ∧
      ∀ index outcome, pageEvent = .settle index outcome →
        ∃ reply, outcome = Web.request reply ∧
          ∀ told ∈ reply, visit.replies index = some told := by
  cases event with
  | other event => exact Or.inl rfl
  | serve index request occasion => exact Or.inl rfl
  | reuse index earlier => exact Or.inl rfl
  | navigate code =>
      refine Or.inr ⟨_, rfl, ?_, nofun⟩
      intro code same
      cases same
      rfl
  | render => exact Or.inr ⟨_, rfl, nofun, nofun⟩
  | flush => exact Or.inr ⟨_, rfl, nofun, nofun⟩
  | deliver index =>
      cases isReply : visit.replies index with
      | none => exact Or.inl (by simp [pageEvents, isReply])
      | some reply =>
          refine Or.inr ⟨.settle index (Web.request (some reply)),
            by simp [pageEvents, isReply], nofun, ?_⟩
          intro other outcome same
          cases same
          refine ⟨some reply, rfl, fun told isTold => ?_⟩
          rw [isReply, Option.mem_some.mp isTold]
  | lose index =>
      refine Or.inr ⟨_, rfl, nofun, ?_⟩
      intro other outcome same
      cases same
      exact ⟨none, rfl, nofun⟩

theorem getElem?_keys_step
    {index : Nat}
    {key : Bytes}
    (isKey : visit.page.requests.keys[index]? = some key)
    (event : VisitEvent) :
    (visit.step site event).page.requests.keys[index]? = some key := by
  change (visit.page.run (visit.pageEvents event)).requests.keys[index]? = some key
  rcases visit.pageEvents_cases event with none | ⟨pageEvent, isEvent, -⟩
  · rw [none]
    exact isKey
  · rw [isEvent]
    exact PastePage.getElem?_keys_step isKey pageEvent

/-- A reply that has come back to a request did so before, or does now. -/
theorem nextReplies_cases
    {event : VisitEvent}
    {index : Nat}
    {reply : Reply}
    (isReply : visit.nextReplies site event index = some reply) :
    visit.replies index = some reply ∨
      (∃ request occasion response, event = .serve index request occasion ∧
        visit.server.answer site request occasion = some response ∧
        reply = .ofResponse site.encoders response) ∨
      ∃ earlier, event = .reuse index earlier ∧
        visit.replies earlier = some reply := by
  have updated : ∀ (place : Nat) (back : Option Reply),
      visit.replied place back index = some reply →
        visit.replies index = some reply ∨ index = place ∧ back = some reply := by
    intro place back isReply
    unfold replied at isReply
    by_cases same : index = place
    · subst same
      rw [Function.update_self, Option.or_eq_some_iff] at isReply
      exact (isReply.imp (fun isBack => ⟨rfl, isBack⟩) And.right).symm
    · rw [Function.update_of_ne same] at isReply
      exact Or.inl isReply
  cases event with
  | serve place request occasion =>
      refine (updated _ _ isReply).imp_right ?_
      rintro ⟨rfl, isBack⟩
      obtain ⟨response, answered, rfl⟩ := Option.map_eq_some_iff.mp isBack
      exact Or.inl ⟨request, occasion, response, rfl, answered, rfl⟩
  | reuse place earlier =>
      refine (updated _ _ isReply).imp_right ?_
      rintro ⟨rfl, isBack⟩
      exact Or.inr ⟨earlier, rfl, isBack⟩
  | _ => exact Or.inl isReply

/-- A server answers what the page asks for this key. -/
structure Answers
    (site : Site)
    (server : Server)
    (key : Bytes)
    (request : HttpRequest)
    (occasion : Occasion)
    (reply : Reply) : Prop where
  fetchable : Fetchable key
  isGet : request.method = ascii "GET"
  isPath : request.escapedPath = fetchPath key
  unconditional : request.header.get "If-None-Match" = []
  answered : ∃ response, server.answer site request occasion = some response ∧
    reply = .ofResponse site.encoders response

/-- Only what the server answers now has yet to be good. -/
theorem Sound.step
    (sound : visit.Sound good)
    {event : VisitEvent}
    (admitted : visit.Admits event)
    (served : ∀ index request occasion key reply,
      event = .serve index request occasion →
      Answers site visit.server key request occasion reply →
      good key reply) :
    (visit.step site event).Sound good := by
  refine ⟨?_, ?_⟩
  · change (visit.page.run (visit.pageEvents event)).Known good
    rcases visit.pageEvents_cases event with
      none | ⟨pageEvent, isEvent, navigates, settles⟩
    · rw [none]
      exact sound.page
    · rw [isEvent]
      refine sound.page.step ?_ ?_
      · intro code isNavigation
        rw [navigates code isNavigation] at admitted
        exact admitted
      · intro index outcome isSettle
        obtain ⟨reply, isOutcome, back⟩ := settles index outcome isSettle
        exact ⟨reply, isOutcome, fun told isTold =>
          sound.replied index told (back told isTold)⟩
  · intro index reply isReply
    rcases nextReplies_cases isReply with
      before | ⟨request, occasion, response, rfl, answered, rfl⟩ |
        ⟨earlier, rfl, isEarlier⟩
    · obtain ⟨key, isKey, isGood⟩ := sound.replied index reply before
      exact ⟨key, getElem?_keys_step isKey event, isGood⟩
    · obtain ⟨isGet, unconditional, key, isKey, isPath⟩ := admitted
      have fetchable := sound.page.keys key (List.mem_of_getElem? isKey)
      exact ⟨key, getElem?_keys_step isKey _, served index request occasion key _ rfl
        ⟨fetchable, isGet, isPath, unconditional, response, answered, rfl⟩⟩
    · obtain ⟨key, isKey, isEarlierKey⟩ := admitted
      obtain ⟨other, isOther, isGood⟩ := sound.replied earlier reply isEarlier
      rw [isEarlierKey, Option.some.injEq] at isOther
      subst isOther
      exact ⟨key, getElem?_keys_step isKey _, isGood⟩

/-! ## What the server has answered -/

/-- What the page asks for is answered by what `Get` finds. -/
theorem Answers.served
    {server : Server}
    {key : Bytes}
    {request : HttpRequest}
    {occasion : Occasion}
    {reply : Reply}
    (answers : Answers site server key request occasion reply) :
    ∃ store, server.system = .opened store ∧
      reply = readReply site request occasion.shownAt key
        (Server.found store occasion key) := by
  obtain ⟨response, answered, rfl⟩ := answers.answered
  obtain ⟨store, isOpen⟩ := Server.isOpen_of_answer answered
  obtain ⟨_, same, isReply⟩ := answer_fetch isOpen answers.fetchable answers.isGet
    answers.isPath answers.unconditional occasion
  rw [answered, Option.some.injEq] at same
  subst same
  exact ⟨store, isOpen, isReply⟩

/-- A reply of which a document has the key that was asked for. -/
def Labelled (key : Bytes) (reply : Reply) : Prop :=
  ∀ document, Web.request (some reply) = .ok document →
    stringMember (ascii "key") document = some key

theorem Answers.labelled
    (documented : site.texts.Documented)
    {server : Server}
    {key : Bytes}
    {request : HttpRequest}
    {occasion : Occasion}
    {reply : Reply}
    (answers : Answers site server key request occasion reply) :
    Labelled key reply := by
  obtain ⟨store, -, rfl⟩ := answers.served
  exact fun document accepted => (request_found documented accepted).1

/-- A reply that the server gave to what the page asks for a key. -/
def Told
    (site : Site)
    (visit : Visit)
    (past : List VisitEvent)
    (key : Bytes)
    (reply : Reply) : Prop :=
  ∃ earlier index request occasion rest,
    past = earlier ++ .serve index request occasion :: rest ∧
    Answers site (visit.run site earlier).server key request occasion reply

theorem Told.later
    {past : List VisitEvent}
    {key : Bytes}
    {reply : Reply}
    (told : Told site visit past key reply)
    (event : VisitEvent) :
    Told site visit (past ++ [event]) key reply := by
  obtain ⟨earlier, index, request, occasion, rest, rfl, answers⟩ := told
  exact ⟨earlier, index, request, occasion, rest ++ [event], by simp, answers⟩

theorem Told.labelled
    (documented : site.texts.Documented)
    {past : List VisitEvent}
    {key : Bytes}
    {reply : Reply}
    (told : Told site visit past key reply) :
    Labelled key reply := by
  obtain ⟨_, _, _, _, _, _, answers⟩ := told
  exact answers.labelled documented

section Runs

variable {server : Server} {code : Bytes} {handoff : Option Bytes}
  {events : List VisitEvent} (fetchable : Fetchable code)
  (admitted : Runs.Each (step site) Admits (start server code handoff) events)
include fetchable admitted

theorem told_run :
    ((start server code handoff).run site events).Sound
      (Told site (start server code handoff) events) := by
  refine Runs.invariant_run_past
    (fun past visit => Visit.Sound
      (Told site (start server code handoff) past) visit) ?_
    (sound_start fetchable server handoff _) admitted
  intro past event sound admits
  refine (sound.mono fun _ _ told => told.later event).step admits ?_
  rintro index request occasion key reply rfl answers
  exact ⟨past, index, request, occasion, [], rfl, answers⟩

theorem labelled_run (documented : site.texts.Documented) :
    Runs.Each (step site)
      (fun visit event => visit.Admits event ∧ visit.Sound Labelled)
      (start server code handoff) events := by
  refine admitted.with_invariant (Visit.Sound Labelled) ?_
    (sound_start fetchable server handoff _)
  intro visit event sound admits
  refine sound.step admits ?_
  rintro index request occasion key reply - answers
  exact answers.labelled documented

omit fetchable in
/-- The server runs as if there were no page. -/
theorem server_run :
    ((start server code handoff).run site events).server =
      server.run site ((start server code handoff).behind site events) ∧
    Runs.Each (Server.step site) (Server.ReopensWith Store.Options.KeepsPastes)
      server ((start server code handoff).behind site events) := by
  have moves : ∀ (visit : Visit) (event : VisitEvent), visit.Admits event →
      (visit.step site event).server =
        Runs.run (Server.step site) visit.server event.serverEvents :=
    fun _ _ _ => rfl
  refine ⟨Runs.part_run moves admitted, Runs.each_behind moves ?_ admitted⟩
  intro visit event admits
  cases event with
  | other event => exact ⟨admits, trivial⟩
  | serve index request occasion => exact ⟨trivial, trivial⟩
  | _ => trivial

/-- The events of the page in a run. -/
theorem page_run (documented : site.texts.Documented) :
    ∃ pageEvents, ((start server code handoff).run site events).page =
        (PastePage.mount code handoff).run pageEvents ∧
      Runs.Each PastePage.step PastePage.Keyed (.mount code handoff)
        pageEvents ∧
      pageEvents.countP PageEvent.isNavigation =
        events.countP VisitEvent.isNavigation := by
  have labelled := labelled_run fetchable admitted documented
  have moves : ∀ (visit : Visit) (event : VisitEvent),
      visit.Admits event ∧ visit.Sound Labelled →
      (visit.step site event).page =
        Runs.run PastePage.step visit.page (visit.pageEvents event) :=
    fun _ _ _ => rfl
  refine ⟨Runs.behind (step site) pageEvents (start server code handoff) events,
    Runs.part_run moves labelled, Runs.each_behind moves ?_ labelled, ?_⟩
  · rintro visit event ⟨-, sound⟩
    rcases visit.pageEvents_cases event with none | ⟨pageEvent, isEvent, -, settles⟩
    · rw [none]
      trivial
    · rw [isEvent]
      refine ⟨?_, trivial⟩
      cases pageEvent with
      | settle index outcome =>
          obtain ⟨reply, rfl, back⟩ := settles index _ rfl
          cases reply with
          | none => trivial
          | some reply =>
              obtain ⟨key, isKey, isGood⟩ := sound.replied index reply (back _ rfl)
              obtain ⟨other, isOther, rfl⟩ := Requests.getElem?_keys.mp isKey
              cases accepted : Web.request (some reply) with
              | error failure => trivial
              | ok document =>
                  intro ticket found
                  rw [isOther, Option.some.injEq] at found
                  rw [← found]
                  exact isGood document accepted
      | _ => trivial
  · clear admitted labelled
    generalize start server code handoff = visit
    induction events generalizing visit with
    | nil => rfl
    | cons event events inductionHypothesis =>
        have here : (visit.pageEvents event).countP PageEvent.isNavigation =
            if event.isNavigation then 1 else 0 := by
          cases event with
          | deliver index =>
              cases isReply : visit.replies index with
              | none => simp [pageEvents, isReply, VisitEvent.isNavigation]
              | some reply =>
                  simp [pageEvents, isReply, VisitEvent.isNavigation,
                    PageEvent.isNavigation]
          | _ => rfl
        rw [Runs.behind, List.countP_append, inductionHypothesis, here,
          List.countP_cons, Nat.add_comm]

end Runs

/-- The server answered what the page asks for the code of this row with the
status 404, and when it did the paste was gone. -/
def WasGone
    (site : Site)
    (visit : Visit)
    (past : List VisitEvent)
    (stored : Store.Row) : Prop :=
  ∃ earlier index request occasion rest reply store,
    past = earlier ++ .serve index request occasion :: rest ∧
    Answers site (visit.run site earlier).server stored.code request occasion
      reply ∧
    reply.status = 404 ∧
    (visit.run site earlier).server.system = .opened store ∧
    visit.server.system.Gone
      (Server.trace site visit.server (visit.behind site earlier)) stored store
        occasion.env.now

section Created

variable {server : Server} {code : Bytes} {handoff : Option Bytes}
  {events : List VisitEvent}
  {options : Store.Options} {env : Store.Env} {request : Store.Request}
  {before db : Store.Database} {paste : Store.Paste}
  (created : Store.Created options env request before paste db)
  (inverts : options.codec.zstd.Inverts)
  (serverSound : server.system.Sound)
  (isContent : server.system.content = db)
  (isSettings : server.system.settings = some options)
  (admitted : Runs.Each (step site) Admits (start server code handoff) events)
  {reply : Reply}
  (told : Told site (start server code handoff) events paste.code reply)
include created inverts serverSound isContent isSettings admitted told

/-- What the server has told of a paste is its content, or that it is gone. -/
theorem Told.of_created (documented : site.texts.Documented) :
    (∀ document, Web.request (some reply) = .ok document →
      stringMember (ascii "content") document = some (reencode request.content)) ∧
    (reply.status = 404 →
      WasGone site (start server code handoff) events
        (paste.row (options.codec.compress request.content).1
          (options.codec.compress request.content).2)) := by
  obtain ⟨earlier, index, sent, occasion, rest, rfl, answers⟩ := told
  obtain ⟨store, isOpen, rfl⟩ := answers.served
  obtain ⟨isServer, reopens⟩ := server_run (Runs.each_append.mp admitted).1
  have reached : server.system.run (Server.trace site server
      ((start server code handoff).behind site earlier)) = .opened store := by
    rw [← Server.run_system, ← isServer, isOpen]
  have read := fun works : occasion.env.fails store.db .readPaste = false =>
    created.got_or_hidden inverts serverSound isContent isSettings
      (Server.each_trace reopens) reached works
  have valid : Id.valid paste.code ≠ false := by
    rw [created.wellFormed]
    decide
  refine ⟨?_, ?_⟩
  · intro document accepted
    obtain ⟨-, found, content, isFound, isMember⟩ :=
      request_found documented accepted
    have works : occasion.env.fails store.db .readPaste = false := by
      rw [Bool.eq_false_iff]
      intro fails
      simp [Server.found, Store.get, Store.readRow, fails, created.wellFormed]
        at isFound
    have sameContent : content = request.content := by
      rcases read works with ⟨got, -⟩ | ⟨missing, -⟩
      · rw [show Server.found store occasion paste.code = _ from got] at isFound
        cases isFound
        rfl
      · rw [show Server.found store occasion paste.code = _ from missing]
          at isFound
        cases isFound
    rw [sameContent] at isMember
    exact isMember (content_ne_nil created.accepted)
  · intro missing
    have notFound := got_of_readReply missing
    obtain ⟨works, -⟩ :=
      (Store.get_eq_notFound_iff.mp notFound).resolve_left valid
    rcases read works with ⟨got, -⟩ | ⟨-, -, gone⟩
    · rw [show Server.found store occasion paste.code = _ from got] at notFound
      cases notFound
    · exact ⟨earlier, index, sent, occasion, rest, _, store, rfl, answers, missing,
        isOpen, gone⟩

end Created

/-- What a page at rest presents for the code of a paste with this content. -/
inductive Presents (content : Bytes) (gone : Prop) (page : PastePage) : Prop
  | content
      (held : Held)
      (isPaste : page.paste = some held)
      (noError : page.error = none)
      (isContent : stringMember (ascii "content") held.document =
        some (reencode content))
  | error
      (error : ApiError)
      (noPaste : page.paste = none)
      (isError : page.error = some error)
      (cause : error.status = 404 → gone)
  | waits
      (index : Nat)
      (cleared : page.paste = none ∧ page.error = none)
      (asked : page.requests.keys[index]? = some page.code)
      (awaited : ∀ other, page.requests.awaits other = true ↔ other = index)

/-- The page shows 404 only for a reply of this status. -/
theorem exists_missing
    {reply : Option Reply}
    {failure : Failure}
    (isFailure : Web.request reply = .error failure)
    (missing : failure.toApiError.status = 404) :
    ∃ told ∈ reply, told.status = 404 := by
  cases reply with
  | none =>
      cases isFailure
      exact absurd missing (by decide)
  | some told =>
      refine ⟨told, rfl, ?_⟩
      rw [Web.request] at isFailure
      split at isFailure
      case isTrue =>
        split at isFailure
        case isTrue => cases isFailure
        case isFalse =>
          cases isFailure
          exact absurd missing (by decide)
      case isFalse =>
        cases isFailure
        exact missing

/-- The document a request is settled with is one of a reply. -/
theorem exists_accepted
    {reply : Option Reply}
    {document : Bytes}
    (accepted : Web.request reply = .ok document) :
    ∃ told ∈ reply, Web.request (some told) = .ok document := by
  cases reply with
  | none => cases accepted
  | some told => exact ⟨told, rfl, accepted⟩

end Visit

/-- Whoever opens the page of a paste after it was created, with the response to
its creation handed over or not, is never shown anything under its code but the
content that was sent: whatever the order of navigations, renders, requests and
replies, and whatever else happens to the server, restarts with the same key,
minimum code length and library included.  A page at rest shows this content, or
waits for the one request it has for the code, or shows why that has failed, and
then 404 only if the paste was gone when the server answered.  It issues at most
one request, and two for each navigation. -/
theorem page_shows_created
    {site : Site}
    (documented : site.texts.Documented)
    {file : Store.File}
    {last : Option Store.Options}
    {before : List Event}
    {server : Server}
    (started : (Server.start site (.closed file last)).run site before = server)
    {store : Store.OpenStore}
    (isOpen : server.system = .opened store)
    (inverts : store.options.codec.zstd.Inverts)
    {creating : HttpRequest}
    {occasion : Occasion}
    {endpoint : Endpoint}
    {captured : Bytes}
    (isCreate : endpoint = .create ∨ endpoint = .legacyCreate)
    (routed : mux creating.method creating.escapedPath =
      .handled endpoint captured)
    {response : Response}
    (answered : server.answer site creating occasion = some response)
    (succeeded : response.status < 400) :
    let next := server.step site (.request creating occasion)
    ∃ envelope paste,
      (server.asked site creating occasion).submitted unmarshal =
        some envelope ∧
      Announces site creating endpoint paste envelope.content response ∧
      ∀ code handoff events,
        Fetchable code →
        (∀ document ∈ handoff, endpoint = .create ∧
          response.decoded site.encoders = some document) →
        Runs.Each (Visit.step site) Visit.Admits (Visit.start next code handoff)
          events →
        let page := ((Visit.start next code handoff).run site events).page
        page.requests.issued.length ≤
            2 * events.countP VisitEvent.isNavigation + 1 ∧
          (page.AtRest → page.code = paste.code →
            Visit.Presents envelope.content
              (Visit.WasGone site (Visit.start next code handoff) events
                (paste.row (store.options.codec.compress envelope.content).1
                  (store.options.codec.compress envelope.content).2)) page) := by
  intro next
  obtain ⟨paste, content, made, announces⟩ :=
    announces_of_succeeded isOpen isCreate routed answered succeeded
  obtain ⟨envelope, db, submitted, rfl, created, isNext, nextSound⟩ :=
    created_of_request (Server.sound_of_run started isOpen) isOpen isCreate routed
      made
  refine ⟨envelope, paste, submitted, announces, ?_⟩
  intro code handoff events fetchable handed admitted page
  obtain ⟨pageEvents, isPage, keyed, navigations⟩ :=
    Visit.page_run fetchable admitted documented
  change page = _ at isPage
  refine ⟨?_, fun rest isCode => ?_⟩
  · rw [isPage, ← navigations]
    exact PastePage.requests_bounded keyed
  have sound := Visit.told_run fetchable admitted
  change Visit.Sound _ _ at sound
  have tells := fun reply told =>
    @Visit.Told.of_created site next code handoff events _ _ _ _ _ paste created inverts
      nextSound (by rw [isNext]; rfl) (by rw [isNext]; rfl) admitted reply told
      documented
  -- What a request for the code was settled with is what the server has told.
  have settled : ∀ index outcome,
      page.requests.IsCurrent index page.code (some outcome) →
        ∃ reply, outcome = Web.request reply ∧ ∀ told ∈ reply,
          Visit.Told site (Visit.start next code handoff) events paste.code
            told := by
    intro index outcome isCurrent
    rw [← isCode]
    exact sound.page.answered index _ isCurrent.2 outcome rfl
  have view : page.View handoff := by
    have soundPage := PastePage.sound_run code handoff pageEvents
    rw [← isPage] at soundPage
    exact soundPage.view rest
  cases view with
  | shows held isPaste isKey noError idle isFrom =>
      refine .content held isPaste noError ?_
      cases source : held.source with
      | none =>
          simp only [PastePage.From, source] at isFrom
          obtain ⟨rfl, decoded⟩ := handed held.document isFrom
          rw [announces.2.2] at decoded
          cases encoded : (describe site.texts (baseURL site.config
              (creating.incoming [])) paste envelope.content).encode
                site.texts with
          | none =>
              rw [encoded, Option.getD_none, Option.some.injEq] at decoded
              rw [← decoded] at isKey
              cases isKey
          | some body =>
              rw [encoded, Option.getD_some, Option.some.injEq] at decoded
              rw [← decoded]
              exact stringMember_encode documented
                (readNumber_ratio documented _ _ _)
                (content_ne_nil created.accepted) encoded
      | some index =>
          simp only [PastePage.From, source] at isFrom
          obtain ⟨ticket, found, isOutcome⟩ := isFrom
          obtain ⟨reply, isReply, told⟩ :=
            sound.page.answered index ticket found _ isOutcome
          obtain ⟨one, isOne, accepted⟩ := Visit.exists_accepted isReply.symm
          have isTold := told one isOne
          have sameKey := isTold.labelled documented _ accepted
          rw [isKey, isCode, Option.some.injEq] at sameKey
          rw [← sameKey] at isTold
          exact (tells one isTold).1 _ accepted
  | failed index failure noPaste isError isCurrent =>
      obtain ⟨reply, isOutcome, told⟩ := settled index _ isCurrent
      refine .error failure.toApiError noPaste isError fun missing => ?_
      obtain ⟨one, isOne, isMissing⟩ := Visit.exists_missing isOutcome.symm missing
      exact (tells one (told one isOne)).2 isMissing
  | loads index cleared awaited isCurrent =>
      refine .waits index cleared ?_ awaited
      exact Requests.getElem?_keys.mpr ⟨_, isCurrent.2, rfl⟩
  | blank index document cleared null isCurrent =>
      obtain ⟨reply, isOutcome, told⟩ := settled index _ isCurrent
      obtain ⟨one, isOne, accepted⟩ := Visit.exists_accepted isOutcome.symm
      have labelled := (told one isOne).labelled documented _ accepted
      rw [isNull_of_key labelled] at null
      cases null

/-- A page that is opened without a handoff fetches the paste and shows it. -/
theorem page_shows_created_small :
    let creating := HttpRequest.plain "POST" (ascii "/api/pastes") (ascii "a")
      (by decide)
    let reading := HttpRequest.plain "GET" (ascii "/api/pastes/0") [] (by decide)
    let start := Server.start .small (.closed .fresh none)
    let before := [Event.background (.openFile smallOptions none)]
    let server := start.run .small before
    let next := server.step .small (.request creating (.calm 0))
    let events := [VisitEvent.flush, .serve 0 reading (.calm 0), .deliver 0,
      .render, .flush]
    let page := ((Visit.start next (ascii "0") none).run .small events).page
    page.requests.issued.length ≤ 1 ∧
      ∃ held, page.paste = some held ∧
        stringMember (ascii "content") held.document = some (ascii "a") := by
  intro creating reading start before server next events page
  obtain ⟨store, isOpen, isSmall⟩ : ∃ store,
      server.system = .opened store ∧ store.options = smallOptions :=
    ⟨_, rfl, rfl⟩
  obtain ⟨response, answered, status⟩ : ∃ response,
      server.answer .small creating (.calm 0) = some response ∧
        response.status = 201 := by
    have isStatus : (server.answer .small creating (.calm 0)).map
        Response.status = some 201 := by
      decide +kernel
    exact Option.map_eq_some_iff.mp isStatus
  obtain ⟨envelope, paste, submitted, announces, presents⟩ :=
    page_shows_created Texts.small_documented rfl isOpen
      (by rw [isSmall]; exact Compress.rawFrames_inverts) (Or.inl rfl)
      (show mux (ascii "POST") (ascii "/api/pastes") = .handled .create [] by
        decide +kernel)
      answered (by rw [status]; decide)
  have content : envelope.content = ascii "a" := by
    have isContent : ((server.asked .small creating (.calm 0)).submitted
        unmarshal).map CreateRequest.content = some (ascii "a") := by
      decide +kernel
    rw [submitted] at isContent
    exact Option.some.inj isContent
  have code : paste.code = ascii "0" := by
    have isLocation : (server.answer .small creating (.calm 0)).map
        (fun response => response.header.values "Location") =
          some [ascii "http://localhost:8080" ++ (0x2F :: ascii "0")] := by
      decide +kernel
    rw [answered, Option.map_some, announces.1, Link.path_page] at isLocation
    have same := (List.cons.inj (Option.some.inj isLocation)).1
    exact (List.cons.inj (List.append_cancel_left same)).2
  have fetchable : Fetchable (ascii "0") := fetchable_of_valid (by decide)
  have admitted : Runs.Each (Visit.step .small) Visit.Admits
      (Visit.start next (ascii "0") none) events :=
    ⟨trivial, ⟨rfl, rfl, ascii "0", by decide +kernel, by decide +kernel⟩, trivial,
      trivial, trivial, trivial⟩
  obtain ⟨few, shows⟩ :=
    presents (ascii "0") none events fetchable (fun _ none => nomatch none) admitted
  refine ⟨few, ?_⟩
  obtain ⟨some, ran, frame, isZero⟩ : page.paste.isSome = true ∧
      page.ran = some page.dependencies ∧
      page.frame = ⟨page.code, page.paste, page.error⟩ ∧
      page.code = ascii "0" := by
    decide +kernel
  have rest : page.AtRest := ⟨ran, frame⟩
  have isCode : page.code = paste.code := isZero.trans code.symm
  have isA : reencode (ascii "a") = ascii "a" := by decide
  cases shows rest isCode with
  | content held isPaste noError isContent =>
      rw [content, isA] at isContent
      exact ⟨held, isPaste, isContent⟩
  | error error noPaste isError cause =>
      change page.paste = none at noPaste
      rw [noPaste] at some
      cases some
  | waits index cleared asked awaited =>
      have noPaste : page.paste = none := cleared.1
      rw [noPaste] at some
      cases some

end Web
end Haste
