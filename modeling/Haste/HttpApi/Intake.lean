import Haste.HttpApi.Links
import Haste.HttpApi.Throughput

/-!
# What an address may store

The limiter is called once for each create request, before anything is read of
its body, and a request it turns away stores nothing.  No other request stores
anything at all.  What an address is granted in a stretch of time therefore
bounds the pastes it can have stored in it.
-/

namespace Haste
namespace HttpApi

open Go
open Foundation

/-- When the limiter is asked, if the event comes to that. -/
def Event.calledAt : Event → Option Int
  | .request _ occasion => some occasion.calledAt
  | .background _ => none

/-- The process goes on. -/
def Event.Continues (event : Event) : Prop :=
  ∀ options stopped, event ≠ .background (.openFile options stopped)

namespace Server

/-- The create request that an event is, and the store it reaches. -/
def creation (server : Server) :
    Event → Option (HttpRequest × Occasion × Store.OpenStore)
  | .background _ => none
  | .request request occasion =>
      match server.system, reached request with
      | .opened store, some (.create, _) => some (request, occasion, store)
      | .opened store, some (.legacyCreate, _) => some (request, occasion, store)
      | _, _ => none

/-- The calls of the limiter behind an event. -/
def calls (site : Site) (server : Server) (event : Event) : List Call :=
  match server.creation event with
  | some (request, occasion, _) => [call site request occasion]
  | none => []

/-- The address an event stores a paste for, if it stores one. -/
def storesFor (site : Site) (server : Server) (event : Event) : Option Bytes :=
  match server.creation event with
  | some (request, occasion, store) =>
      match (server.made site store request occasion).1 with
      | .ok _ => some (call site request occasion).ip
      | .error _ => none
  | none => none

/-- How many pastes a run stores for an address. -/
def stored (site : Site) (ip : Bytes) (server : Server) (events : List Event) :
    Nat :=
  Runs.total (step site)
    (fun server event =>
      if server.storesFor site event = some ip then 1 else 0) server events

/-! ## One event -/

variable {site : Site} {server : Server}

/-- A create request is one that reaches a handler for it. -/
theorem creation_eq_some
    {event : Event}
    {request : HttpRequest}
    {occasion : Occasion}
    {store : Store.OpenStore}
    (isCreation : server.creation event = some (request, occasion, store)) :
    event = .request request occasion ∧ server.system = .opened store ∧
      ∃ endpoint code, (endpoint = .create ∨ endpoint = .legacyCreate) ∧
        reached request = some (endpoint, code) := by
  unfold creation at isCreation
  split at isCreation
  case h_1 => cases isCreation
  case h_2 =>
    split at isCreation
    case h_1 code isOpen isReached =>
      cases isCreation
      exact ⟨rfl, isOpen, _, _, Or.inl rfl, isReached⟩
    case h_2 code isOpen isReached =>
      cases isCreation
      exact ⟨rfl, isOpen, _, _, Or.inr rfl, isReached⟩
    case h_3 => cases isCreation

/-- Every event that is no create request leaves the limiter alone, unless the
process starts anew. -/
theorem limiter_step
    {event : Event}
    (continues : event.Continues) :
    (server.step site event).limiter =
      Runs.after allow server.limiter (server.calls site event) := by
  cases event with
  | background background =>
      cases background with
      | openFile options stopped => exact absurd rfl (continues options stopped)
      | _ => rfl
  | request request occasion =>
      simp only [step, afterRequest, calls, creation]
      cases server.system with
      | closed file last => rfl
      | opened store =>
          rcases reached request with _ | ⟨_ | _ | _ | _ | _ | _, code⟩ <;> rfl

/-- What is stored, the limiter has let through. -/
theorem allowed_of_storesFor
    {event : Event}
    {ip : Bytes}
    (stores : server.storesFor site event = some ip) :
    ∃ call, server.calls site event = [call] ∧ call.ip = ip ∧
      (allow server.limiter call).1 = true := by
  unfold storesFor at stores
  split at stores
  case h_2 => cases stores
  case h_1 request occasion store isCreation =>
    split at stores
    case h_2 => cases stores
    case h_1 stored made =>
      obtain ⟨envelope, submitted, -⟩ := created_of_made made
      refine ⟨call site request occasion, by rw [calls, isCreation],
        Option.some.inj stores, ?_⟩
      unfold Request.submitted at submitted
      split at submitted
      case h_1 body allowed isBody setting => exact allowed
      case h_2 => cases submitted

/-- The limiter is asked when the request arrives. -/
theorem map_now_calls_sublist (event : Event) :
    ((server.calls site event).map Call.now).Sublist event.calledAt.toList := by
  unfold calls
  split
  case h_1 request occasion store isCreation =>
    obtain ⟨rfl, -⟩ := creation_eq_some isCreation
    exact List.Sublist.refl _
  case h_2 => exact List.nil_sublist _

/-- What `Create` answers to the store behind a create request, the handler is
answered. -/
theorem made_of_created
    {store : Store.OpenStore}
    {request : HttpRequest}
    {occasion : Occasion}
    {envelope : CreateRequest}
    (submitted : (server.asked site request occasion).submitted unmarshal =
      some envelope)
    {paste : Store.Paste}
    (created : (Store.System.opened store).answer
      (.create occasion.env envelope.toStore) = .created paste) :
    (server.made site store request occasion).1 = .ok (paste, envelope.content) := by
  rw [made, create_of_submitted _ _ _ submitted]
  simp only [Store.System.answer, Store.System.perform, Store.System.onStore,
    Store.OpenStore.create] at created
  cases stored : Store.create store.options occasion.env envelope.toStore
      store.db with
  | mk result db =>
      rw [stored] at created
      cases result with
      | error error => cases created
      | ok stored => cases created; rfl

/-- A create request leaves the database as it is, or stores a paste for its
address. -/
theorem content_creation
    {event : Event}
    {request : HttpRequest}
    {occasion : Occasion}
    {store : Store.OpenStore}
    (sound : server.system.Sound)
    (isCreation : server.creation event = some (request, occasion, store)) :
    (server.step site event).system.content = server.system.content ∨
      ∃ envelope paste db,
        server.storesFor site event = some (call site request occasion).ip ∧
        (server.asked site request occasion).submitted unmarshal =
          some envelope ∧
        (server.step site event).system = .opened { store with db } ∧
        Store.Created store.options occasion.env envelope.toStore store.db paste
          db := by
  obtain ⟨rfl, isOpen, endpoint, code, isCreate, isReached⟩ :=
    creation_eq_some isCreation
  have isOps : server.ops site (.request request occasion) =
      ((server.asked site request occasion).submitted unmarshal).toList.map
        fun envelope => .create occasion.env envelope.toStore := by
    simp only [ops, isOpen, isReached]
    rcases isCreate with rfl | rfl <;> rfl
  rw [step_system, isOps]
  cases submitted :
      (server.asked site request occasion).submitted unmarshal with
  | none => exact Or.inl rfl
  | some envelope =>
      have ended := Store.System.outcome (isOpen ▸ sound)
        (.create occasion.env envelope.toStore)
      rw [isOpen]
      simp only [Option.toList_some, List.map_singleton, Runs.run_cons,
        Runs.run_nil]
      generalize isAnswer : (Store.System.opened store).answer
        (.create occasion.env envelope.toStore) = answer at ended
      generalize (Store.System.opened store).step
        (.create occasion.env envelope.toStore) = next at ended ⊢
      cases ended with
      | nothing | refused => exact Or.inl rfl
      | created _ _ paste db created =>
          refine Or.inr ⟨envelope, paste, db, ?_, rfl, rfl, created⟩
          simp only [storesFor, isCreation, made_of_created submitted isAnswer]

/-- So does every other request. -/
theorem content_step
    (sound : server.system.Sound)
    (request : HttpRequest)
    (occasion : Occasion) :
    (server.step site (.request request occasion)).system.content =
        server.system.content ∨
      ∃ store envelope paste db,
        server.creation (.request request occasion) =
          some (request, occasion, store) ∧
        server.storesFor site (.request request occasion) =
          some (call site request occasion).ip ∧
        (server.asked site request occasion).submitted unmarshal =
          some envelope ∧
        (server.step site (.request request occasion)).system =
          .opened { store with db } ∧
        Store.Created store.options occasion.env envelope.toStore store.db paste
          db := by
  cases isCreation : server.creation (.request request occasion) with
  | some creation =>
      obtain ⟨asking, instant, store⟩ := creation
      obtain ⟨same, -⟩ := creation_eq_some isCreation
      cases same
      refine (content_creation sound isCreation).imp_right ?_
      rintro ⟨envelope, paste, db, rest⟩
      exact ⟨store, envelope, paste, db, rfl, rest⟩
  | none =>
      refine Or.inl ?_
      rw [step_system]
      cases isSystem : server.system with
      | closed file last => simp only [ops, isSystem, Runs.run_nil]
      | opened store =>
          have reads : ∀ code, ((Store.System.opened store).run
              [.get occasion.env code]).content = store.db := by
            intro code
            simp only [Runs.run_cons, Runs.run_nil, Store.System.step,
              Store.System.perform, Store.System.onStore, Store.OpenStore.get]
            split <;> rfl
          cases isReached : reached request with
          | none => simp only [ops, isSystem, isReached, Runs.run_nil]
          | some handled =>
              obtain ⟨endpoint, code⟩ := handled
              simp only [creation, isSystem, isReached] at isCreation
              simp only [ops, isSystem, isReached]
              cases endpoint with
              | create | legacyCreate => cases isCreation
              | read | raw | download | legacyRead => exact reads code
              | _ => rfl

/-! ## Runs -/

/-- The limiter of a process has seen the calls behind its events. -/
theorem limiter_run
    {events : List Event}
    (continued : ∀ event ∈ events, event.Continues) :
    (server.run site events).limiter = Runs.after allow server.limiter
      (Runs.behind (step site) (calls site) server events) :=
  Runs.part_run (fun _ _ continues => limiter_step continues)
    (Runs.each_of_forall_mem fun event listed _ => continued event listed)

/-- The calls come when their requests do. -/
theorem map_now_behind_sublist (events : List Event) :
    ((Runs.behind (step site) (calls site) server events).map Call.now).Sublist
      (events.filterMap Event.calledAt) := by
  induction events generalizing server with
  | nil => exact List.Sublist.refl _
  | cons event rest inductionHypothesis =>
      rw [Runs.behind, List.map_append]
      have here := @map_now_calls_sublist site server event
      cases isCalled : event.calledAt with
      | none =>
          rw [List.filterMap_cons_none isCalled]
          rw [isCalled] at here
          exact here.append inductionHypothesis
      | some instant =>
          rw [List.filterMap_cons_some isCalled]
          rw [isCalled] at here
          exact here.append inductionHypothesis

theorem admitted_append
    (ip : Bytes)
    (limiter : Option IPLimiter)
    (first second : List Call) :
    admitted ip (first ++ second) (Runs.answers allow limiter (first ++ second)) =
      admitted ip first (Runs.answers allow limiter first) +
        admitted ip second
          (Runs.answers allow (Runs.after allow limiter first) second) := by
  unfold admitted
  rw [Runs.answers_append, List.zip_append (by simp), List.countP_append]

/-- An address has no more stored than it is granted. -/
theorem stored_le_admitted
    (ip : Bytes)
    {events : List Event}
    (continued : ∀ event ∈ events, event.Continues) :
    server.stored site ip events ≤
      admitted ip (Runs.behind (step site) (calls site) server events)
        (Runs.answers allow server.limiter
          (Runs.behind (step site) (calls site) server events)) := by
  induction events generalizing server with
  | nil => exact Nat.zero_le _
  | cons event rest inductionHypothesis =>
      obtain ⟨continues, others⟩ := List.forall_mem_cons.mp continued
      rw [stored, Runs.total, Runs.behind, admitted_append,
        ← limiter_step continues]
      refine Nat.add_le_add ?_ (inductionHypothesis others)
      split
      case isTrue stores =>
        obtain ⟨call, isCall, isIP, allowed⟩ := allowed_of_storesFor stores
        simp [isCall, admitted, Runs.answers, isIP, allowed]
      case isFalse => exact Nat.zero_le _

end Server

end HttpApi
end Haste
