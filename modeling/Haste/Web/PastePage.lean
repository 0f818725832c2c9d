import Haste.Foundation.Requests
import Haste.Foundation.Runs
import Haste.HttpApi.Decoding

/-!
# The page of a paste

The page shows what was fetched for the code in the address bar.  Its effect runs
after a render in which the code or the paste has changed; it gives up on the
request under way and, unless the paste is the one of the code, clears the page
and issues another.  Navigations, renders, effects and responses come in any
order.  Whenever the page comes to rest it shows the paste of its code, or why
there is none, or it waits for one request, which is for its code.
-/

namespace Haste
namespace Web

open Go
open Foundation
open HttpApi (stringMember)

/-! ## The API client -/

/-- `ApiError`. -/
structure ApiError where
  status : Nat
  code : Bytes
  message : Bytes
  deriving DecidableEq, Repr

/-- A response as `fetch` resolves with it, its body decoded. -/
structure Reply where
  status : Nat
  body : Bytes

/-- What `request` throws. -/
inductive Failure
  | api (error : ApiError)
  /-- The body of a good response is no JSON. -/
  | syntaxError

/-- What a promise of `request` settles with.  A document is kept as its text. -/
abbrev Outcome := Except Failure Bytes

/-- `request`, given what `fetch` resolves with, or none where it rejects.  The
JSON the browser parses is read with the server's decoder, and the members of an
error count where they are strings, as in every error of the server. -/
def request : Option Reply → Outcome
  | none =>
      .error (.api ⟨0, ascii "network", ascii "Could not reach the server."⟩)
  | some reply =>
      if 200 ≤ reply.status ∧ reply.status ≤ 299 then
        if (readDocument reply.body).isSome then .ok reply.body
        else .error .syntaxError
      else
        .error (.api
          { status := reply.status
            code := (stringMember (ascii "error") reply.body).getD
              (ascii "http_error")
            message := (stringMember (ascii "message") reply.body).getD
              (ascii "Request failed with status " ++ itoa reply.status ++
                ascii ".") })

/-- What the page makes of a failure. -/
def Failure.toApiError : Failure → ApiError
  | .api error => error
  | .syntaxError => ⟨0, ascii "unknown", ascii "Could not load paste."⟩

/-- The document is `null`. -/
def isNull (document : Bytes) : Bool :=
  match readDocument document with
  | some .null => true
  | _ => false

/-- `null` has no key. -/
theorem isNull_of_key
    {document key : Bytes}
    (isKey : stringMember (ascii "key") document = some key) :
    isNull document = false := by
  rw [Bool.eq_false_iff]
  intro null
  unfold isNull at null
  unfold stringMember at isKey
  split at null
  case h_1 isDocument =>
    rw [isDocument] at isKey
    cases isKey
  case h_2 => cases null

/-! ## The state of the page -/

/-- A paste as the page holds it.  Two of them are one object only if they come
from one request, or both from the router. -/
structure Held where
  /-- The request it is the result of, or none for one that was handed over. -/
  source : Option Nat
  document : Bytes
  deriving DecidableEq, Repr

/-- `paste?.key === code`. -/
def isFor (code : Bytes) (paste : Option Held) : Bool :=
  paste.any fun held => stringMember (ascii "key") held.document == some code

/-- What a render has seen of the state. -/
structure Frame where
  code : Bytes
  paste : Option Held
  error : Option ApiError
  deriving DecidableEq, Repr

/-- `PastePage`: its newest state, what was rendered last, and its effect. -/
structure PastePage where
  code : Bytes
  paste : Option Held
  error : Option ApiError
  frame : Frame
  /-- The dependencies that the effect ran with last. -/
  ran : Option (Bytes × Option Held)
  requests : Requests Bytes Outcome

/-- What a result of this request sets the paste to. -/
def held (index : Nat) (document : Bytes) : Option Held :=
  if isNull document then none else some ⟨some index, document⟩

namespace PastePage

/-- The page when it has mounted, with what the router has handed over. -/
def mount (code : Bytes) (handoff : Option Bytes) : PastePage :=
  let handed := handoff.map (Held.mk none)
  let paste := if isFor code handed then handed else none
  { code := code
    paste := paste
    error := none
    frame := ⟨code, paste, none⟩
    ran := none
    requests := .empty }

variable (page : PastePage)

/-- `[code, paste]` as they were rendered last. -/
def dependencies : Bytes × Option Held := (page.frame.code, page.frame.paste)

/-- The cleanup of the effect, and the effect. -/
def effect : PastePage :=
  let requests := page.requests.withdraw
  if isFor page.frame.code page.frame.paste then
    { page with ran := some page.dependencies, requests := requests }
  else
    { page with
      paste := none
      error := none
      ran := some page.dependencies
      requests := requests.issue page.frame.code }

/-- The effect is run if its dependencies have changed. -/
def flush : PastePage :=
  if page.ran = some page.dependencies then page else page.effect

/-- The page is rendered.  The effect of the render before is run first. -/
def render : PastePage :=
  { page.flush with
    frame := ⟨page.flush.code, page.flush.paste, page.flush.error⟩ }

/-- The promise of a request settles. -/
def settle (index : Nat) (outcome : Outcome) : PastePage :=
  let settled := { page with requests := page.requests.settle index outcome }
  if page.requests.awaits index then
    match outcome with
    | .ok document => { settled with paste := held index document }
    | .error failure => { settled with error := some failure.toApiError }
  else settled

end PastePage

/-- What happens to the page. -/
inductive PageEvent
  | navigate (code : Bytes)
  | render
  | flush
  | settle (index : Nat) (outcome : Outcome)

/-- Another code, with the page still mounted. -/
def PageEvent.isNavigation : PageEvent → Bool
  | .navigate _ => true
  | _ => false

namespace PastePage

variable (page : PastePage)

/-- One event. -/
def step : PageEvent → PastePage
  | .navigate code => { page with code := code }
  | .render => page.render
  | .flush => page.flush
  | .settle index outcome => page.settle index outcome

/-- Nothing is left to render or to run. -/
structure AtRest : Prop where
  ran : page.ran = some page.dependencies
  frame : page.frame = ⟨page.code, page.paste, page.error⟩

/-! ## What the state follows from -/

/-- The paste that the outcome of a request sets. -/
def pasteOf (index : Nat) : Option Outcome → Option Held
  | some (.ok document) => held index document
  | _ => none

/-- The error that the outcome of a request sets. -/
def errorOf : Option Outcome → Option ApiError
  | some (.error failure) => some failure.toApiError
  | _ => none

/-- A paste comes from the router or from a request that has answered it. -/
def From
    (handoff : Option Bytes)
    (requests : Requests Bytes Outcome)
    (paste : Held) : Prop :=
  match paste.source with
  | none => handoff = some paste.document
  | some index => ∃ ticket, requests.issued[index]? = some ticket ∧
      ticket.outcome = some (.ok paste.document)

/-- Since the effect has run, the state follows from its request: there is none
if the paste was for the code, and else it is for the code. -/
inductive Follows (page : PastePage) : Prop
  | unrun
      (ran : page.ran = none)
      (idle : page.requests.current = none)
  | kept
      (code : Bytes)
      (paste : Option Held)
      (ran : page.ran = some (code, paste))
      (matched : isFor code paste = true)
      (idle : page.requests.current = none)
      (same : page.paste = paste)
      (noError : page.error = none)
  | asked
      (code : Bytes)
      (paste : Option Held)
      (index : Nat)
      (outcome : Option Outcome)
      (ran : page.ran = some (code, paste))
      (unmatched : isFor code paste = false)
      (isCurrent : page.requests.IsCurrent index code outcome)
      (older : ∀ held ∈ paste, ∀ source ∈ held.source, source < index)
      (isPaste : page.paste = pasteOf index outcome)
      (isError : page.error = errorOf outcome)

/-- The invariant of the page. -/
structure Sound (handoff : Option Bytes) (page : PastePage) : Prop where
  sole : page.requests.Sole
  origin : ∀ paste, page.paste = some paste ∨ page.frame.paste = some paste →
    From handoff page.requests paste
  follows : page.Follows
  /-- A paste that the effect has not seen yet stays until it has. -/
  unseen : page.ran ≠ some page.dependencies →
    ∀ paste, page.frame.paste = some paste →
      page.paste = some paste ∧ page.error = none ∧
        ∀ index, page.requests.awaits index = false

theorem From.later
    {handoff : Option Bytes}
    {requests later : Requests Bytes Outcome}
    {paste : Held}
    (isFrom : From handoff requests paste)
    (isLater : later.Extends requests) :
    From handoff later paste := by
  unfold From at isFrom ⊢
  split
  case h_1 isNone => simpa only [isNone] using isFrom
  case h_2 index isSome =>
    simp only [isSome] at isFrom
    obtain ⟨ticket, found, isOutcome⟩ := isFrom
    obtain ⟨next, isNext, -, keeps⟩ := isLater index ticket found
    exact ⟨next, isNext, keeps _ isOutcome⟩

variable {page : PastePage} {handoff : Option Bytes}

/-! ## One step -/

theorem settle_of_unawaited
    {index : Nat}
    (unawaited : page.requests.awaits index = false)
    (outcome : Outcome) :
    page.settle index outcome =
      { page with requests := page.requests.settle index outcome } := by
  simp only [settle, unawaited, Bool.false_eq_true, if_false]

/-- An outcome that counts becomes the state of the page. -/
theorem settle_of_awaited
    {index : Nat}
    (awaited : page.requests.awaits index = true)
    (cleared : page.paste = none ∧ page.error = none)
    (outcome : Outcome) :
    page.settle index outcome =
      { page with
        paste := pasteOf index (some outcome)
        error := errorOf (some outcome)
        requests := page.requests.settle index outcome } := by
  simp only [settle, awaited, if_true]
  cases outcome with
  | ok document => simp only [pasteOf, errorOf, cleared.2]
  | error failure => simp only [pasteOf, errorOf, cleared.1]

/-- What is awaited is the outcome of the request that the state follows from,
and nothing is shown in the meantime. -/
theorem Follows.of_awaited
    (follows : page.Follows)
    (sole : page.requests.Sole)
    {index : Nat}
    (awaited : page.requests.awaits index = true) :
    ∃ code paste, page.ran = some (code, paste) ∧
      isFor code paste = false ∧
      page.requests.IsCurrent index code none ∧
      (∀ held ∈ paste, ∀ source ∈ held.source, source < index) ∧
      page.paste = none ∧ page.error = none := by
  cases follows with
  | unrun ran idle =>
      rw [sole.awaits_of_none idle] at awaited
      cases awaited
  | kept code paste ran matched idle same noError =>
      rw [sole.awaits_of_none idle] at awaited
      cases awaited
  | asked code paste current outcome ran unmatched isCurrent older isPaste
      isError =>
      obtain ⟨rfl, rfl⟩ := (sole.awaits_iff isCurrent index).mp awaited
      exact ⟨code, paste, ran, unmatched, isCurrent, older, isPaste, isError⟩

theorem Follows.settle
    (follows : page.Follows)
    (sole : page.requests.Sole)
    (index : Nat)
    (outcome : Outcome) :
    (page.settle index outcome).Follows := by
  cases awaited : page.requests.awaits index with
  | true =>
      obtain ⟨code, paste, ran, unmatched, isCurrent, older, cleared⟩ :=
        follows.of_awaited sole awaited
      rw [settle_of_awaited awaited cleared]
      exact .asked code paste index _ ran unmatched
        (isCurrent.settle_awaited outcome) older rfl rfl
  | false =>
      rw [settle_of_unawaited awaited]
      cases follows with
      | unrun ran idle => exact .unrun ran idle
      | kept code paste ran matched idle same noError =>
          exact .kept code paste ran matched idle same noError
      | asked code paste current settled ran unmatched isCurrent older isPaste
          isError =>
          exact .asked code paste current settled ran unmatched
            (isCurrent.settle_other awaited outcome) older isPaste isError

/-- A paste that a request of this outcome has set comes from it. -/
theorem from_of_pasteOf
    {requests : Requests Bytes Outcome}
    {index : Nat}
    {code : Bytes}
    {outcome : Option Outcome}
    (isCurrent : requests.IsCurrent index code outcome)
    {paste : Held}
    (isPaste : pasteOf index outcome = some paste) :
    From handoff requests paste := by
  rcases outcome with _ | failure | document
  · cases isPaste
  · cases isPaste
  · simp only [pasteOf, held] at isPaste
    split at isPaste
    case isTrue => cases isPaste
    case isFalse =>
      cases isPaste
      exact ⟨_, isCurrent.2, rfl⟩

theorem Sound.settle
    (sound : page.Sound handoff)
    (index : Nat)
    (outcome : Outcome) :
    (page.settle index outcome).Sound handoff := by
  have follows := sound.follows.settle sound.sole index outcome
  have isLater := page.requests.extends_settle index outcome
  cases awaited : page.requests.awaits index with
  | true =>
      obtain ⟨code, paste, ran, unmatched, isCurrent, older, cleared⟩ :=
        sound.follows.of_awaited sound.sole awaited
      rw [settle_of_awaited awaited cleared] at follows ⊢
      refine ⟨sound.sole.settle index outcome, ?_, follows, ?_⟩
      · rintro paste (isPaste | isPaste)
        · exact from_of_pasteOf (isCurrent.settle_awaited outcome) isPaste
        · exact (sound.origin paste (Or.inr isPaste)).later isLater
      · intro unseen paste isPaste
        obtain ⟨-, -, idle⟩ := sound.unseen unseen paste isPaste
        rw [idle index] at awaited
        cases awaited
  | false =>
      rw [settle_of_unawaited awaited] at follows ⊢
      refine ⟨sound.sole.settle index outcome, ?_, follows, ?_⟩
      · intro paste isPaste
        exact (sound.origin paste isPaste).later isLater
      · intro unseen paste isPaste
        obtain ⟨same, noError, idle⟩ := sound.unseen unseen paste isPaste
        exact ⟨same, noError, fun other =>
          Requests.awaits_settle (idle other) index outcome⟩

theorem effect_of_matched
    (matched : isFor page.frame.code page.frame.paste = true) :
    page.effect =
      { page with
        ran := some page.dependencies
        requests := page.requests.withdraw } := by
  simp only [effect, matched, if_true]

theorem effect_of_unmatched
    (unmatched : isFor page.frame.code page.frame.paste = false) :
    page.effect =
      { page with
        paste := none
        error := none
        ran := some page.dependencies
        requests := page.requests.withdraw.issue page.frame.code } := by
  simp only [effect, unmatched, Bool.false_eq_true, if_false]

@[simp] theorem effect_ran : page.effect.ran = some page.dependencies := by
  unfold effect
  split <;> rfl

@[simp] theorem effect_frame : page.effect.frame = page.frame := by
  unfold effect
  split <;> rfl

@[simp] theorem effect_code : page.effect.code = page.code := by
  unfold effect
  split <;> rfl

theorem Sound.effect
    (sound : page.Sound handoff)
    (due : page.ran ≠ some page.dependencies) :
    page.effect.Sound handoff := by
  have seen : ∀ next : PastePage, next.ran = some page.dependencies →
      next.frame = page.frame → ¬next.ran ≠ some next.dependencies := by
    intro next ran frame
    rw [ran, dependencies, dependencies, frame]
    exact not_not.mpr rfl
  have withdrawn := page.requests.extends_withdraw
  cases matched : isFor page.frame.code page.frame.paste with
  | true =>
      obtain ⟨paste, isPaste⟩ : ∃ paste, page.frame.paste = some paste := by
        obtain ⟨paste, isPaste, -⟩ := (Option.any_eq_true _ _).mp matched
        exact ⟨paste, isPaste⟩
      obtain ⟨same, noError, -⟩ := sound.unseen due paste isPaste
      rw [effect_of_matched matched]
      refine ⟨sound.sole.of_withdraw, ?_, ?_, ?_⟩
      · intro paste isPaste
        exact (sound.origin paste isPaste).later withdrawn
      · exact .kept page.frame.code page.frame.paste rfl matched
          Requests.withdraw_current (same.trans isPaste.symm) noError
      · exact fun due => absurd due (seen _ rfl rfl)
  | false =>
      have issued := page.requests.withdraw.extends_issue page.frame.code
      rw [effect_of_unmatched matched]
      refine ⟨sound.sole.issue_withdraw _, ?_, ?_, ?_⟩
      · rintro paste (isPaste | isPaste)
        · cases isPaste
        · exact (sound.origin paste (Or.inr isPaste)).later
            (issued.trans withdrawn)
      · refine .asked page.frame.code page.frame.paste _ none rfl matched
          (Requests.isCurrent_issue _) ?_ rfl rfl
        intro paste isPaste source isSource
        have isFrom := sound.origin paste (Or.inr isPaste)
        rw [Option.mem_def] at isSource
        simp only [From, isSource] at isFrom
        obtain ⟨ticket, found, -⟩ := isFrom
        rw [Requests.length_withdraw]
        exact (List.getElem?_eq_some_iff.mp found).1
      · exact fun due => absurd due (seen _ rfl rfl)

theorem Sound.flush (sound : page.Sound handoff) : page.flush.Sound handoff := by
  unfold PastePage.flush
  split
  case isTrue => exact sound
  case isFalse due => exact sound.effect due

@[simp] theorem flush_frame : page.flush.frame = page.frame := by
  unfold flush
  split
  · rfl
  · exact effect_frame

@[simp] theorem flush_code : page.flush.code = page.code := by
  unfold flush
  split
  · rfl
  · exact effect_code

@[simp] theorem flush_ran : page.flush.ran = some page.dependencies := by
  unfold flush
  split
  case isTrue same => exact same
  case isFalse => exact effect_ran

theorem Sound.render (sound : page.Sound handoff) :
    page.render.Sound handoff := by
  have flushed := sound.flush
  refine ⟨flushed.sole, ?_, ?_, ?_⟩
  · rintro paste (isPaste | isPaste)
    · exact flushed.origin paste (Or.inl isPaste)
    · exact flushed.origin paste (Or.inl isPaste)
  · cases flushed.follows with
    | unrun ran idle => exact .unrun ran idle
    | kept code paste ran matched idle same noError =>
        exact .kept code paste ran matched idle same noError
    | asked code paste index outcome ran unmatched isCurrent older isPaste
        isError =>
        exact .asked code paste index outcome ran unmatched isCurrent older
          isPaste isError
  · intro unseen paste isPaste
    change page.flush.paste = some paste at isPaste
    refine ⟨isPaste, ?_⟩
    change page.flush.error = none ∧
      ∀ index, page.flush.requests.awaits index = false
    cases flushed.follows with
    | unrun ran idle =>
        rw [flush_ran] at ran
        cases ran
    | kept code kept ran matched idle same noError =>
        exact ⟨noError, flushed.sole.awaits_of_none idle⟩
    | asked code seen index outcome ran unmatched isCurrent older same isError =>
        rw [same] at isPaste
        rcases outcome with _ | failure | document
        · cases isPaste
        · cases isPaste
        · refine ⟨isError, fun other => ?_⟩
          rw [Bool.eq_false_iff]
          intro awaited
          obtain ⟨-, isNone⟩ := (flushed.sole.awaits_iff isCurrent other).mp awaited
          cases isNone

theorem Sound.navigate (sound : page.Sound handoff) (code : Bytes) :
    ({ page with code := code } : PastePage).Sound handoff := by
  refine ⟨sound.sole, sound.origin, ?_, sound.unseen⟩
  cases sound.follows with
  | unrun ran idle => exact .unrun ran idle
  | kept code paste ran matched idle same noError =>
      exact .kept code paste ran matched idle same noError
  | asked code paste index outcome ran unmatched isCurrent older isPaste isError =>
      exact .asked code paste index outcome ran unmatched isCurrent older isPaste
        isError

theorem Sound.step (sound : page.Sound handoff) (event : PageEvent) :
    (page.step event).Sound handoff := by
  cases event with
  | navigate code => exact sound.navigate code
  | render => exact sound.render
  | flush => exact sound.flush
  | settle index outcome => exact sound.settle index outcome

theorem sound_mount (code : Bytes) (handoff : Option Bytes) :
    (mount code handoff).Sound handoff := by
  refine ⟨Requests.sole_empty, ?_, .unrun rfl rfl, ?_⟩
  · intro paste isPaste
    simp only [mount, or_self] at isPaste
    split at isPaste
    case isTrue =>
      obtain ⟨document, isDocument, rfl⟩ := Option.map_eq_some_iff.mp isPaste
      exact isDocument
    case isFalse => cases isPaste
  · intro _ paste isPaste
    exact ⟨isPaste, rfl, Requests.sole_empty.awaits_of_none rfl⟩

/-- The page after a run. -/
abbrev run (page : PastePage) (events : List PageEvent) : PastePage :=
  Runs.run step page events

theorem sound_run
    (code : Bytes)
    (handoff : Option Bytes)
    (events : List PageEvent) :
    ((mount code handoff).run events).Sound handoff :=
  Runs.invariant_run_of_forall (Sound handoff)
    (fun _ event sound => sound.step event) (sound_mount code handoff)

/-! ## The requests of a step -/

/-- A step issues one request at most, for the code that was rendered last. -/
theorem keys_flush (page : PastePage) :
    page.flush.requests.keys = page.requests.keys ∨
      page.flush.requests.keys = page.requests.keys ++ [page.frame.code] := by
  unfold flush
  split
  case isTrue => exact Or.inl rfl
  case isFalse =>
    cases matched : isFor page.frame.code page.frame.paste with
    | true =>
        rw [effect_of_matched matched]
        exact Or.inl Requests.keys_withdraw
    | false =>
        rw [effect_of_unmatched matched]
        refine Or.inr ?_
        rw [Requests.keys_issue, Requests.keys_withdraw]

theorem requests_settle (index : Nat) (outcome : Outcome) :
    (page.settle index outcome).requests =
      page.requests.settle index outcome := by
  unfold settle
  simp only
  split
  · split <;> rfl
  · rfl

theorem keys_step (page : PastePage) (event : PageEvent) :
    (page.step event).requests.keys = page.requests.keys ∨
      (page.step event).requests.keys =
        page.requests.keys ++ [page.frame.code] := by
  cases event with
  | navigate code => exact Or.inl rfl
  | render => exact keys_flush page
  | flush => exact keys_flush page
  | settle index outcome =>
      refine Or.inl ?_
      change (page.settle index outcome).requests.keys = _
      rw [requests_settle, Requests.keys_settle]

theorem answered_flush
    {holds : Bytes → Outcome → Prop}
    (answered : page.requests.Answered holds) :
    page.flush.requests.Answered holds := by
  unfold flush
  split
  case isTrue => exact answered
  case isFalse =>
    unfold effect
    simp only
    split
    case isTrue => exact answered.withdraw
    case isFalse => exact answered.withdraw.issue _

/-- What is known of the outcomes stays known if it is known of what arrives. -/
theorem answered_step
    {holds : Bytes → Outcome → Prop}
    (answered : page.requests.Answered holds)
    {event : PageEvent}
    (arrives : ∀ index outcome, event = .settle index outcome →
      ∀ ticket, page.requests.issued[index]? = some ticket →
        holds ticket.key outcome) :
    (page.step event).requests.Answered holds := by
  cases event with
  | navigate code => exact answered
  | render => exact answered_flush answered
  | flush => exact answered_flush answered
  | settle index outcome =>
      change (page.settle index outcome).requests.Answered holds
      rw [requests_settle]
      exact answered.settle (arrives index outcome rfl)

/-! ## At rest -/

/-- What a page at rest shows. -/
inductive View (handoff : Option Bytes) (page : PastePage) : Prop
  /-- The paste of its code, and it waits for nothing. -/
  | shows
      (paste : Held)
      (isPaste : page.paste = some paste)
      (isKey : stringMember (ascii "key") paste.document = some page.code)
      (noError : page.error = none)
      (idle : ∀ index, page.requests.awaits index = false)
      (isFrom : From handoff page.requests paste)
  /-- The failure of its request for this code. -/
  | failed
      (index : Nat)
      (failure : Failure)
      (noPaste : page.paste = none)
      (isError : page.error = some failure.toApiError)
      (settled : page.requests.IsCurrent index page.code (some (.error failure)))
  /-- Nothing yet: it waits for one request, which is for this code. -/
  | loads
      (index : Nat)
      (cleared : page.paste = none ∧ page.error = none)
      (awaited : ∀ other, page.requests.awaits other = true ↔ other = index)
      (isCurrent : page.requests.IsCurrent index page.code none)
  /-- Nothing, as its request was answered `null`. -/
  | blank
      (index : Nat)
      (document : Bytes)
      (cleared : page.paste = none ∧ page.error = none)
      (isNull : isNull document = true)
      (settled : page.requests.IsCurrent index page.code (some (.ok document)))

theorem Sound.view (sound : page.Sound handoff) (rest : page.AtRest) :
    page.View handoff := by
  have seen : page.ran = some (page.code, page.paste) := by
    rw [rest.ran, dependencies, rest.frame]
  cases sound.follows with
  | unrun ran idle =>
      rw [seen] at ran
      cases ran
  | kept code paste ran matched idle same noError =>
      rw [seen, Option.some.injEq, Prod.mk.injEq] at ran
      obtain ⟨rfl, isPaste⟩ := ran
      obtain ⟨held, isHeld, isKey⟩ := (Option.any_eq_true _ _).mp matched
      exact .shows held (isPaste.trans isHeld) (beq_iff_eq.mp isKey) noError
        (sound.sole.awaits_of_none idle)
        (sound.origin held (Or.inl (isPaste.trans isHeld)))
  | asked code paste index outcome ran unmatched isCurrent older isPaste isError =>
      rw [seen, Option.some.injEq, Prod.mk.injEq] at ran
      obtain ⟨rfl, same⟩ := ran
      rcases outcome with _ | failure | document
      · refine .loads index ⟨isPaste, isError⟩ (fun other => ?_) isCurrent
        rw [sound.sole.awaits_iff isCurrent, and_iff_left rfl]
      · exact .failed index failure isPaste isError isCurrent
      · cases null : isNull document with
        | true =>
            rw [pasteOf, held, if_pos null] at isPaste
            exact .blank index document ⟨isPaste, isError⟩ null isCurrent
        | false =>
            -- The effect would have run again for what its request has set.
            rw [pasteOf, held, if_neg (Bool.eq_false_iff.mp null)] at isPaste
            have earlier := older _ (same.symm.trans isPaste) index rfl
            exact absurd earlier (lt_irrefl index)

/-- A render and the effect after it. -/
def round (page : PastePage) : PastePage := page.render.flush

theorem frame_render :
    page.render.frame =
      ⟨page.render.code, page.render.paste, page.render.error⟩ := rfl

/-- After a round the page is at rest, or the effect has cleared it. -/
theorem round_cases (page : PastePage) :
    page.round.AtRest ∨
      page.round.ran = some page.round.dependencies ∧
        page.round.paste = none ∧ page.round.error = none := by
  unfold round
  have isFrame := @frame_render page
  generalize page.render = rendered at isFrame
  unfold flush
  split
  case isTrue quiet => exact Or.inl ⟨quiet, isFrame⟩
  case isFalse due =>
    cases matched : isFor rendered.frame.code rendered.frame.paste with
    | true =>
        rw [effect_of_matched matched]
        exact Or.inl ⟨rfl, isFrame⟩
    | false =>
        rw [effect_of_unmatched matched]
        exact Or.inr ⟨rfl, rfl, rfl⟩

/-- After at most two renders there is nothing left to render. -/
theorem atRest_of_rounds (page : PastePage) : page.round.round.AtRest := by
  rcases round_cases page with rest | ⟨quiet, noPaste, noError⟩
  · -- Rendering a page at rest changes nothing.
    have isFlush : page.round.flush = page.round := if_pos rest.ran
    have isRender : page.round.render = page.round := by
      unfold render
      rw [isFlush, ← rest.frame]
    rw [round, isRender, isFlush]
    exact rest
  · -- What is rendered now has no paste, and neither has what is left.
    have isFlush : page.round.flush = page.round := if_pos quiet
    have isRender : page.round.render =
        { page.round with frame := ⟨page.round.code, none, none⟩ } := by
      unfold render
      rw [isFlush, noPaste, noError]
    rw [round, isRender]
    unfold flush
    split
    case isTrue rendered =>
      refine ⟨rendered, ?_⟩
      rw [noPaste, noError]
    case isFalse due =>
      rw [effect_of_unmatched rfl]
      exact ⟨rfl, rfl⟩

/-- After every run a page at rest has one of these views, and two more renders
bring it to rest with the code it has. -/
theorem view_of_run
    (code : Bytes)
    (handoff : Option Bytes)
    (events : List PageEvent) :
    let page := (mount code handoff).run events
    (page.AtRest → page.View handoff) ∧
      page.round.round.AtRest ∧
      page.round.round.code = page.code ∧
      page.round.round.View handoff := by
  intro page
  have sound := sound_run code handoff events
  have rest := atRest_of_rounds page
  refine ⟨sound.view, rest, ?_, sound.render.flush.render.flush.view rest⟩
  have same : ∀ page : PastePage, page.round.code = page.code := by
    intro page
    rw [round, flush_code]
    exact flush_code
  rw [same, same]

/-! ## How many requests there are -/

/-- A document that arrives is the one of the code that was asked for. -/
def Keyed (page : PastePage) : PageEvent → Prop
  | .settle index (.ok document) =>
      ∀ ticket, page.requests.issued[index]? = some ticket →
        stringMember (ascii "key") document = some ticket.key
  | _ => True

/-- The effect is due and will issue a request. -/
def due (page : PastePage) : Bool :=
  page.ran != some page.dependencies &&
    !isFor page.frame.code page.frame.paste

/-- The paste once the effect that is due has run. -/
def left (page : PastePage) : Option Held := if page.due then none else page.paste

/-- How many requests the renders to come may issue by themselves, with this paste
left.  After a navigation one request may be issued while the old paste is
cleared, and one more then. -/
def comes (code : Bytes) (left : Option Held) (frame : Frame) : Nat :=
  if code ≠ frame.code then 2
  else if left = frame.paste ∨ isFor code left then 0
  else if left = none then 1
  else 2

/-- How many requests may still be issued before the page is at rest. -/
def owed (page : PastePage) : Nat :=
  (if page.due then 1 else 0) + comes page.code page.left page.frame

/-- The requests issued, and those that are owed. -/
def account (page : PastePage) : Nat := page.requests.issued.length + page.owed

theorem comes_le (code : Bytes) (left : Option Held) (frame : Frame) :
    comes code left frame ≤ 2 := by
  unfold comes
  split
  · exact le_refl 2
  split
  · exact Nat.zero_le 2
  split
  · exact Nat.le_succ 1
  · exact le_refl 2

theorem due_of_ran (ran : page.ran = some page.dependencies) :
    page.due = false := by
  simp [due, ran]

theorem account_navigate (page : PastePage) (code : Bytes) :
    ({ page with code := code } : PastePage).account ≤ page.account + 2 := by
  have few := comes_le code page.left page.frame
  change page.requests.issued.length +
      ((if page.due then 1 else 0) + comes code page.left page.frame) ≤
    page.requests.issued.length +
      ((if page.due then 1 else 0) + comes page.code page.left page.frame) + 2
  omega

theorem account_flush (page : PastePage) : page.flush.account = page.account := by
  unfold flush
  split
  case isTrue => rfl
  case isFalse unran =>
    have settled : page.effect.due = false :=
      due_of_ran (by rw [effect_ran, dependencies, dependencies, effect_frame])
    cases matched : isFor page.frame.code page.frame.paste with
    | true =>
        have notDue : page.due = false := by simp [due, matched]
        rw [effect_of_matched matched] at settled ⊢
        simp only [account, owed, left, settled, notDue, Requests.length_withdraw,
          Bool.false_eq_true, if_false]
    | false =>
        have isDue : page.due = true := by simp [due, matched, unran]
        rw [effect_of_unmatched matched] at settled ⊢
        simp only [account, owed, left, settled, isDue, Requests.length_issue,
          Requests.length_withdraw, Bool.false_eq_true, if_false, if_true]
        omega

/-- What an effect issues for a paste that it clears is owed before its render. -/
theorem comes_of_changed
    {code : Bytes}
    {paste : Option Held}
    {frame : Frame}
    (changed : (code, paste) ≠ (frame.code, frame.paste))
    (unmatched : isFor code paste = false)
    (error : Option ApiError) :
    1 + comes code none ⟨code, paste, error⟩ ≤ comes code paste frame := by
  have cleared : comes code none ⟨code, paste, error⟩ =
      if paste = none then 0 else 1 := by
    simp [comes, isFor, eq_comm]
  rw [cleared, comes, unmatched]
  by_cases moved : code = frame.code
  · have other : paste ≠ frame.paste := by
      intro same
      exact changed (by rw [moved, same])
    have neither : ¬(paste = frame.paste ∨ false = true) := by simp [other]
    rw [if_neg (not_not.mpr moved), if_neg neither]
    split
    · exact le_refl 1
    · exact le_refl 2
  · rw [if_pos moved]
    split
    · exact Nat.le_succ 1
    · exact le_refl 2

theorem account_render (page : PastePage) :
    page.render.account ≤ page.account := by
  refine le_of_le_of_eq ?_ (account_flush page)
  have ran : page.flush.ran = some page.flush.dependencies := by
    rw [flush_ran, dependencies, dependencies, flush_frame]
  have isRender : page.render = { page.flush with
    frame := ⟨page.flush.code, page.flush.paste, page.flush.error⟩ } := rfl
  rw [isRender]
  generalize page.flush = flushed at ran
  have notDue := due_of_ran ran
  have isLeft : flushed.left = flushed.paste := by simp [left, notDue]
  apply Nat.add_le_add_left
  simp only [owed, notDue, isLeft, Bool.false_eq_true, if_false, Nat.zero_add]
  by_cases same : flushed.ran = some (flushed.code, flushed.paste)
  · simp [due, left, dependencies, same, comes]
  cases matched : isFor flushed.code flushed.paste with
  | true => simp [due, left, dependencies, matched, comes]
  | false =>
      have changed : (flushed.code, flushed.paste) ≠
          (flushed.frame.code, flushed.frame.paste) := by
        intro unchanged
        exact same (by rw [ran, dependencies, unchanged])
      have issued := comes_of_changed changed matched flushed.error
      simpa [due, left, dependencies, same, matched] using issued

theorem account_settle
    (sound : page.Sound handoff)
    {index : Nat}
    {outcome : Outcome}
    (keyed : page.Keyed (.settle index outcome)) :
    (page.settle index outcome).account ≤ page.account := by
  cases awaited : page.requests.awaits index with
  | false =>
      rw [settle_of_unawaited awaited]
      unfold account
      rw [Requests.length_settle]
      exact le_refl _
  | true =>
      obtain ⟨code, paste, ran, unmatched, isCurrent, older, cleared⟩ :=
        sound.follows.of_awaited sound.sole awaited
      rw [settle_of_awaited awaited cleared]
      unfold account
      rw [Requests.length_settle]
      apply Nat.add_le_add_left
      cases outcome with
      | error failure =>
          simp only [owed, left, due, dependencies, pasteOf, cleared.1]
          exact le_refl _
      | ok document =>
          have isKey := keyed _ isCurrent.2
          have isHeld : held index document = some ⟨some index, document⟩ :=
            if_neg (by simp [isNull_of_key isKey])
          have matched : isFor code (held index document) = true := by
            simp [isHeld, isFor, isKey]
          cases isDue : page.due with
          | true =>
              -- What has arrived is cleared by the effect that is due.
              have stillDue : ∀ paste error requests, ({ page with
                  paste := paste, error := error, requests := requests } :
                    PastePage).due = true := fun _ _ _ => isDue
              simp only [owed, left, stillDue, if_true]
              exact le_refl _
          | false =>
              have isCode : page.frame.code = code := by
                by_contra moved
                have unseen : page.ran ≠ some page.dependencies := by
                  rw [ran]
                  intro same
                  cases same
                  exact moved rfl
                have matchedFrame :
                    isFor page.frame.code page.frame.paste = true := by
                  simpa [due, unseen] using isDue
                obtain ⟨old, isOld, -⟩ := (Option.any_eq_true _ _).mp matchedFrame
                obtain ⟨-, -, idle⟩ := sound.unseen unseen old isOld
                rw [idle index] at awaited
                cases awaited
              have stillNot : ∀ paste error requests, ({ page with
                  paste := paste, error := error, requests := requests } :
                    PastePage).due = false := fun _ _ _ => isDue
              simp only [owed, left, stillNot, Bool.false_eq_true, if_false,
                Nat.zero_add, pasteOf]
              by_cases moved : page.code = page.frame.code
              · have nothing : comes page.code (held index document) page.frame =
                    0 := by
                  rw [moved, isCode]
                  simp [comes, isCode, matched]
                rw [nothing]
                exact Nat.zero_le _
              · simp only [comes, ne_eq, moved, not_false_eq_true, if_true]
                exact le_refl 2

theorem account_step
    (sound : page.Sound handoff)
    {event : PageEvent}
    (keyed : page.Keyed event) :
    (page.step event).account ≤
      page.account + if event.isNavigation then 2 else 0 := by
  cases event with
  | navigate code => exact account_navigate page code
  | render => exact account_render page
  | flush => exact le_of_eq (account_flush page)
  | settle index outcome => exact account_settle sound keyed

theorem account_mount (code : Bytes) (handoff : Option Bytes) :
    (mount code handoff).account ≤ 1 := by
  by_cases matched : isFor code (handoff.map (Held.mk none)) = true
  · simp [account, owed, left, due, mount, matched, comes, Requests.empty]
  · have noPaste : isFor code none = false := rfl
    simp [account, owed, left, due, mount, matched, comes, Requests.empty, noPaste,
      dependencies]

/-- If every document that arrives is the one that was asked for, the page issues
one request when it has mounted, and two for each navigation, at most. -/
theorem requests_bounded
    {code : Bytes}
    {handoff : Option Bytes}
    {events : List PageEvent}
    (keyed : Runs.Each step Keyed (mount code handoff) events) :
    ((mount code handoff).run events).requests.issued.length ≤
      2 * events.countP PageEvent.isNavigation + 1 := by
  have bounded : ((mount code handoff).run events).account ≤ _ :=
    Runs.measure_le_run account (Sound handoff)
      (fun _ event sound => sound.step event)
      (fun _ _ sound keyed => account_step sound keyed)
      (sound_mount code handoff) keyed
  rw [Runs.total_ite] at bounded
  have first := account_mount code handoff
  have issued : ((mount code handoff).run events).requests.issued.length ≤
      ((mount code handoff).run events).account := Nat.le_add_right _ _
  omega

end PastePage
end Web
end Haste
