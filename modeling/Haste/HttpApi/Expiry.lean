import Haste.HttpApi.Create
import Haste.Store.WriteOnce
import Mathlib.RingTheory.Coprime.Lemmas
import Mathlib.Tactic.NormNum.GCD
import Mathlib.Tactic.Ring

/-!
# The lifetime asked for over HTTP

A lifetime arrives in seconds and is multiplied into nanoseconds in 64-bit
wrapping arithmetic before it is compared with the ladder.  A thousand million
is `2 ^ 9` times an odd number, so two requests are told apart only by their
seconds modulo `2 ^ 55`.
-/

namespace Haste
namespace HttpApi

open Go
open Store

/-- The lifetimes a request may name: none, or a rung of the ladder. -/
def Offered (seconds : Int) : Prop :=
  seconds = 0 ∨ seconds ∈ expiryOptionsSecs

instance : DecidablePred Offered :=
  fun _ => inferInstanceAs (Decidable (_ ∨ _))

/-- A rung is far below the modulus. -/
theorem Offered.inRange {seconds : Int} (offered : Offered seconds) :
    0 ≤ seconds ∧ seconds ≤ 2592000 := by
  rcases offered with rfl | listed
  · decide
  · have bounded : ∀ rung ∈ expiryOptionsSecs, 0 ≤ rung ∧ rung ≤ 2592000 := by
      decide
    exact bounded seconds listed

theorem offered_emod {seconds : Int} (offered : Offered seconds) :
    seconds % 2 ^ 55 = seconds := by
  have bounds := offered.inRange
  exact Int.emod_eq_of_lt bounds.1 (bounds.2.trans_lt (by decide))

/-- The accepted durations are the offered seconds. -/
theorem allowedTTL_iff_offered (ttl : Int) :
    allowedTTL ttl = true ↔ ∃ seconds, Offered seconds ∧ ttl = seconds * second := by
  rw [allowedTTL_iff]
  constructor
  · rintro (rfl | listed)
    · exact ⟨0, Or.inl rfl, rfl⟩
    · refine ⟨ttl / second, Or.inr (List.mem_map_of_mem listed), ?_⟩
      obtain ⟨seconds, _, rfl⟩ :=
        allowedTTL_seconds ((allowedTTL_iff ttl).mpr (Or.inr listed))
      rw [Int.mul_ediv_cancel _ (by decide)]
  · rintro ⟨seconds, rfl | listed, rfl⟩
    · exact Or.inl rfl
    · obtain ⟨ttl, ttlListed, rfl⟩ := List.mem_map.mp listed
      obtain ⟨whole, _, rfl⟩ :=
        allowedTTL_seconds ((allowedTTL_iff ttl).mpr (Or.inr ttlListed))
      rw [Int.mul_ediv_cancel _ (by decide)]
      exact Or.inr ttlListed

/-- A thousand million has nine factors of two. -/
theorem wrap_dvd_iff (difference : Int) :
    ((2 ^ 64 : Nat) : Int) ∣ difference * 1000000000 ↔ 2 ^ 55 ∣ difference := by
  have odd : IsCoprime (2 ^ 55 : Int) (5 ^ 9) :=
    IsCoprime.pow (Int.isCoprime_iff_gcd_eq_one.mpr (by decide))
  have modulus : ((2 ^ 64 : Nat) : Int) = 2 ^ 55 * 2 ^ 9 := by norm_num
  have product : difference * 1000000000 = difference * 5 ^ 9 * 2 ^ 9 := by ring
  rw [modulus, product, mul_dvd_mul_iff_right (by norm_num)]
  exact ⟨odd.dvd_of_dvd_mul_right, fun divides => divides.mul_right _⟩

/-- The wrapped product is a small number of seconds exactly for the requests
that agree with it modulo `2 ^ 55`. -/
theorem lifetime_eq_iff
    (expiresIn : Int64)
    {seconds : Int}
    (nonnegative : 0 ≤ seconds)
    (small : seconds ≤ 2592000) :
    lifetime expiresIn = seconds * second ↔
      expiresIn.toInt % 2 ^ 55 = seconds := by
  have product : lifetime expiresIn =
      (expiresIn.toInt * 1000000000).bmod (2 ^ 64) :=
    Int64.toInt_mul _ _
  rw [product, Int.bmod_eq_iff (by decide), Int.emod_eq_iff (by decide), second,
    ← sub_mul, wrap_dvd_iff]
  generalize ((2 ^ 55 : Int) ∣ seconds - expiresIn.toInt) = agree
  constructor
  · rintro ⟨_, _, holds⟩
    exact ⟨nonnegative, small.trans_lt (by decide), holds⟩
  · rintro ⟨_, _, holds⟩
    refine ⟨?_, ?_, holds⟩
    · norm_num
      omega
    · norm_num
      omega

/-- The store accepts a request exactly when its seconds modulo `2 ^ 55` are
offered. -/
theorem allowedTTL_lifetime_iff (expiresIn : Int64) :
    allowedTTL (lifetime expiresIn) = true ↔
      Offered (expiresIn.toInt % 2 ^ 55) := by
  rw [allowedTTL_iff_offered]
  constructor
  · rintro ⟨seconds, offered, same⟩
    have bounds := offered.inRange
    rwa [(lifetime_eq_iff expiresIn bounds.1 bounds.2).mp same]
  · intro offered
    have bounds := offered.inRange
    exact ⟨_, offered, (lifetime_eq_iff expiresIn bounds.1 bounds.2).mpr rfl⟩

/-- What the interface promises of a request for a lifetime: a paste is stored
exactly for the offered seconds, it expires exactly as long after its creation,
and every other request is refused with the store unchanged. -/
structure HonoursExpiry
    (result : Except ErrorResponse (Paste × Bytes) × Database)
    (db : Database)
    (seconds : Int) : Prop where
  stores : (∃ paste content, result.1 = .ok (paste, content)) ↔ Offered seconds
  expires : ∀ paste content, result.1 = .ok (paste, content) →
    paste.expiresAt = (if seconds = 0 then none
      else some (paste.createdAt + seconds * second)) ∧
    ∃ row ∈ result.2.pastes.rows, row.code = paste.code ∧
      row.expiresAt = paste.expiresAt.map unix
  refuses : ¬Offered seconds → result = (.error (fail .badTTL), db)

section Requests

variable
  {unmarshal : Bytes → Option CreateRequest}
  {request : Request}
  {envelope : CreateRequest}
  (carries : request.Carries unmarshal envelope)
  {options : Options}
  {env : Env}
  {db : Database}
  {title : Bytes}
  (accepted : checkRequest options { envelope.toStore with ttl := noExpiry } =
    .ok title)
include accepted

omit carries in
/-- A request that is acceptable without a lifetime is judged by its lifetime
alone. -/
theorem checkRequest_toStore :
    checkRequest options envelope.toStore =
      if allowedTTL (lifetime envelope.expiresIn) then .ok title
      else .error .badTTL := by
  have unlimited : allowedTTL noExpiry = true := by decide
  unfold checkRequest at accepted ⊢
  simp only [unlimited] at accepted ⊢
  split at accepted
  · cases accepted
  · split at accepted
    · cases accepted
    · rename_i nonempty small
      rw [if_neg nonempty, if_neg small]
      simp only [CreateRequest.toStore] at accepted ⊢
      cases cleaned : cleanTitle envelope.title with
      | error error =>
          rw [cleaned] at accepted
          cases accepted
      | ok clean =>
          rw [cleaned] at accepted
          cases accepted
          rfl

include carries in
theorem create_refused
    (notOffered : ¬Offered (envelope.expiresIn.toInt % 2 ^ 55)) :
    create unmarshal options request env db = (.error (fail .badTTL), db) := by
  rw [← allowedTTL_lifetime_iff] at notOffered
  have refused := checkRequest_toStore accepted
  rw [if_neg notOffered] at refused
  rw [carries.create_eq]
  unfold Store.create
  rw [refused]

include carries in
theorem create_stored
    {plain : Paste}
    {next : Database}
    (created : Created options env { envelope.toStore with ttl := noExpiry } db
      plain next)
    (accounted : db.Accounted)
    (clean : env.Clean)
    (admitted : env.admission = none)
    (offered : Offered (envelope.expiresIn.toInt % 2 ^ 55)) :
    ∃ paste after,
      create unmarshal options request env db =
        (.ok (paste, envelope.content), after) ∧
      Created options env envelope.toStore db paste after := by
  rw [← allowedTTL_lifetime_iff] at offered
  have acceptedHere := checkRequest_toStore accepted
  rw [if_pos offered] at acceptedHere
  obtain ⟨paste, after, stored, isCreated⟩ :=
    created.create_again accounted clean admitted
      (show envelope.toStore.content = envelope.content from rfl) acceptedHere
  refine ⟨paste, after, ?_, isCreated⟩
  rw [carries.create_eq, stored]

end Requests

/-- Exactly for the requests that are offered, or whose seconds are not offered
modulo `2 ^ 55` either, is the lifetime of an otherwise acceptable request
honoured. -/
theorem create_expiry_iff
    {file : File}
    {last : Option Options}
    {ops : List Op}
    {store : OpenStore}
    (reached : (System.closed file last).run ops = .opened store)
    {unmarshal : Bytes → Option CreateRequest}
    {request : Request}
    {envelope : CreateRequest}
    (carries : request.Carries unmarshal envelope)
    {env : Env}
    (clean : env.Clean)
    {plain : Paste}
    {db : Database}
    (acceptable : Store.create store.options env
      { envelope.toStore with ttl := noExpiry } store.db = (.ok plain, db)) :
    HonoursExpiry (create unmarshal store.options request env store.db) store.db
        envelope.expiresIn.toInt ↔
      Offered envelope.expiresIn.toInt ∨
        ¬Offered (envelope.expiresIn.toInt % 2 ^ 55) := by
  have accounted := System.accounted_of_run (System.sound_closed file last) reached
  have admitted := admission_of_create_ok acceptable
  have created := created_of_create_ok accounted acceptable
  by_cases offered : Offered (envelope.expiresIn.toInt % 2 ^ 55)
  · obtain ⟨paste, after, stored, isCreated⟩ := create_stored carries
      created.accepted created accounted clean admitted offered
    rw [stored]
    constructor
    · intro honours
      exact Or.inl (honours.stores.mp ⟨paste, envelope.content, rfl⟩)
    · intro condition
      have asked := condition.resolve_right (not_not_intro offered)
      refine ⟨⟨fun _ => asked, fun _ => ⟨_, _, rfl⟩⟩, ?_,
        fun notOffered => absurd asked notOffered⟩
      rintro _ _ ⟨rfl, rfl⟩
      refine ⟨?_, _, isCreated.stores.mem_rows, rfl, rfl⟩
      have bounds := asked.inRange
      have duration := (lifetime_eq_iff envelope.expiresIn bounds.1 bounds.2).mpr
        (offered_emod asked)
      rw [isCreated.metadata]
      simp only [draft, CreateRequest.toStore, duration, second]
      split <;> split <;> first | rfl | omega
  · have notAsked : ¬Offered envelope.expiresIn.toInt :=
      fun asked => offered ((offered_emod asked).symm ▸ asked)
    rw [create_refused carries created.accepted offered]
    refine iff_of_true ⟨⟨?_, fun asked => absurd asked notAsked⟩, ?_,
      fun _ => rfl⟩ (Or.inr offered)
    · rintro ⟨_, _, stored⟩
      cases stored
    · rintro _ _ stored
      cases stored

/-- A JSON decoder that knows one body: the content `a` with a lifetime. -/
def unmarshalOne (body : Bytes) (expiresIn : Int64) :
    Bytes → Option CreateRequest := fun given =>
  if given = body then
    some { content := ascii "a", language := [], title := [], expiresIn }
  else none

/-- A JSON request with this body. -/
def jsonRequest (body : Bytes) : Request where
  allowed := true
  body := .ok body
  query := []
  contentType := ascii "application/json; charset=utf-8"

theorem carries_jsonRequest (body : Bytes) (expiresIn : Int64) :
    (jsonRequest body).Carries (unmarshalOne body expiresIn)
      { content := ascii "a", language := [], title := [], expiresIn } where
  allowed := rfl
  json := show isJSON (ascii "application/json; charset=utf-8") = true by decide
  noSettings := show envelopeOnlyParam [] = none by decide
  decoded := ⟨body, rfl, if_pos rfl⟩

/-- An hour is honoured. -/
theorem create_expiry_hour :
    let body := ascii "\x7b\"content\":\"a\",\"expiresIn\":3600\x7d"
    HonoursExpiry (create (unmarshalOne body 3600) Options.small
      (jsonRequest body) (.calm 0) (System.openedFresh Options.small).db)
      (System.openedFresh Options.small).db 3600 := by
  intro body
  obtain ⟨db, acceptable⟩ : ∃ db, Store.create Options.small (.calm 0)
      ⟨ascii "a", [], [], noExpiry⟩ (System.openedFresh Options.small).db =
        (.ok ⟨1, ascii "0", [], [], 1, 1, 10, 0, none⟩, db) :=
    ⟨_, Prod.ext (by decide +kernel) rfl⟩
  exact (create_expiry_iff (System.run_openFresh Options.small)
    (carries_jsonRequest body 3600) (Env.clean_calm 0) acceptable).mpr
      (Or.inl (by decide))

/-- A request for `2 ^ 55` seconds is stored without a lifetime. -/
theorem create_expiry_wrapped :
    let body := ascii
      "\x7b\"content\":\"a\",\"expiresIn\":36028797018963968\x7d"
    let result := create (unmarshalOne body 36028797018963968) Options.small
      (jsonRequest body) (.calm 0) (System.openedFresh Options.small).db
    (∃ paste content, result.1 = .ok (paste, content) ∧
      paste.expiresAt = none) ∧
    ¬HonoursExpiry result (System.openedFresh Options.small).db
      36028797018963968 := by
  intro body result
  have stored : result.1 =
      .ok (⟨1, ascii "0", [], [], 1, 1, 10, 0, none⟩, ascii "a") := by
    decide +kernel
  refine ⟨⟨_, _, stored, rfl⟩, fun honours => ?_⟩
  have offered := honours.stores.mp ⟨_, _, stored⟩
  exact absurd offered (by decide)

end HttpApi
end Haste
