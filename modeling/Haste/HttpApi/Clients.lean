import Haste.HttpApi.Intake
import Mathlib.Data.Finset.Card

/-!
# Which addresses are remembered

The limiter keeps a bucket for each address that has called since its last sweep,
or had called within `idleTTL` when it swept, and for no other.  So there are
never more buckets than calls since the sweep and addresses that were active
then: an address that stays away costs nothing.
-/

namespace Haste
namespace HttpApi

open Go
open Foundation

namespace IPLimiter

/-- When a limiter that was new before these calls has swept last. -/
def lastSweep (calls : List Call) : Option Int :=
  if calls.length < sweepEvery then none
  else (calls[calls.length / sweepEvery * sweepEvery - 1]?).map Call.now

theorem sweepEvery_pos : 0 < sweepEvery := by decide

/-- One call in `sweepEvery` sweeps. -/
theorem lastSweep_concat (past : List Call) (call : Call) :
    lastSweep (past ++ [call]) =
      if (past.length + 1) % sweepEvery = 0 then some call.now
      else lastSweep past := by
  have length : (past ++ [call]).length = past.length + 1 := by simp
  have positive := sweepEvery_pos
  unfold lastSweep
  rw [length]
  split
  case isTrue few =>
    have notNow : (past.length + 1) % sweepEvery ≠ 0 := by
      rw [Nat.mod_eq_of_lt few]
      exact Nat.succ_ne_zero _
    rw [if_neg notNow, if_pos (by omega)]
  case isFalse enough =>
    by_cases now : (past.length + 1) % sweepEvery = 0
    · have last : (past.length + 1) / sweepEvery * sweepEvery - 1 =
          past.length := by
        rw [Nat.div_mul_cancel (Nat.dvd_of_mod_eq_zero now)]
        rfl
      rw [if_pos now, last, List.getElem?_concat_length]
      rfl
    · have same : (past.length + 1) / sweepEvery = past.length / sweepEvery :=
        Nat.succ_div_of_not_dvd fun divides =>
          now (Nat.mod_eq_zero_of_dvd divides)
      have whole : ¬past.length < sweepEvery := by
        intro few
        have exactly : past.length + 1 = sweepEvery := by omega
        rw [exactly, Nat.mod_self] at now
        exact now rfl
      have inside : past.length / sweepEvery * sweepEvery - 1 < past.length := by
        have quotient := Nat.div_mul_le_self past.length sweepEvery
        omega
      rw [if_neg now, if_neg whole, same, List.getElem?_append_left inside]

theorem exists_of_lastSweep
    {calls : List Call}
    {swept : Int}
    (isSweep : swept ∈ lastSweep calls) :
    ∃ call ∈ calls, call.now = swept := by
  unfold lastSweep at isSweep
  split at isSweep
  · cases isSweep
  · obtain ⟨call, found, isNow⟩ := Option.map_eq_some_iff.mp isSweep
    exact ⟨call, List.mem_of_getElem? found, isNow⟩

/-- The call was made after the last sweep, or not long before it. -/
def Active (calls : List Call) (call : Call) : Prop :=
  ∀ swept ∈ lastSweep calls, swept - call.now ≤ idleTTL

instance (calls : List Call) (call : Call) : Decidable (Active calls call) :=
  inferInstanceAs (Decidable (∀ swept ∈ lastSweep calls, _))

/-- What a limiter that was new before these calls knows of them. -/
structure Remembers (past : List Call) (limiter : IPLimiter) : Prop where
  counted : limiter.calls = past.length
  /-- A bucket was seen last at the last call of its address. -/
  seen : ∀ ip bucket, limiter.buckets ip = some bucket →
    (∃ call ∈ past, call.ip = ip ∧ call.now = bucket.seen) ∧
      ∀ call ∈ past, call.ip = ip → call.now ≤ bucket.seen
  active : ∀ ip bucket, limiter.buckets ip = some bucket →
    ∀ swept ∈ lastSweep past, swept - bucket.seen ≤ idleTTL
  forgotten : ∀ ip, limiter.buckets ip = none →
    ∀ call ∈ past, call.ip = ip → ¬Active past call

theorem remembers_new
    {limiter : IPLimiter}
    (new : ∀ ip, limiter.buckets ip = none)
    (uncalled : limiter.calls = 0) :
    limiter.Remembers [] where
  counted := uncalled
  seen := fun ip _ found => by rw [new ip] at found; cases found
  active := fun ip _ found => by rw [new ip] at found; cases found
  forgotten := fun _ _ _ listed => absurd listed List.not_mem_nil

section Call

variable {past : List Call} {limiter : IPLimiter} {call : Call}
  (remembers : limiter.Remembers past)
  (ordered : ∀ earlier ∈ past, earlier.now ≤ call.now)
include remembers ordered

omit ordered in
/-- A bucket that was there stays if its address is active at the sweep. -/
theorem Remembers.sweep_kept
    {ip : Bytes}
    {bucket : Bucket}
    (kept : (limiter.sweep call.now).buckets ip = some bucket) :
    limiter.buckets ip = some bucket ∧
      ∀ swept ∈ lastSweep (past ++ [call]), swept - bucket.seen ≤ idleTTL := by
  have found : limiter.buckets ip = some bucket := by
    rcases limiter.sweep_buckets call.now ip with same | ⟨gone, -⟩
    · rw [← same, kept]
    · rw [gone] at kept
      cases kept
  refine ⟨found, fun swept isSweep => ?_⟩
  rw [lastSweep_concat] at isSweep
  split at isSweep
  case isFalse => exact remembers.active ip bucket found swept isSweep
  case isTrue sweeps =>
    obtain rfl := Option.mem_some.mp isSweep
    by_contra idle
    have gone : (limiter.sweep call.now).buckets ip = none := by
      refine sweep_buckets_of_idle (by rw [remembers.counted, sweeps]) ?_
      intro other isOther
      rw [found, Option.some.injEq] at isOther
      rw [← isOther]
      omega
    rw [gone] at kept
    cases kept

/-- A bucket that is dropped was idle, and so were the calls of its address. -/
theorem Remembers.sweep_dropped
    {ip : Bytes}
    (dropped : (limiter.sweep call.now).buckets ip = none) :
    ∀ earlier ∈ past, earlier.ip = ip → ¬Active (past ++ [call]) earlier := by
  intro earlier listed isIP active
  unfold Active at active
  rw [lastSweep_concat] at active
  rcases limiter.sweep_buckets call.now ip with same | ⟨-, bucket, found, idle⟩
  · rw [same] at dropped
    have stale := remembers.forgotten ip dropped earlier listed isIP
    split at active
    case isFalse => exact stale active
    case isTrue =>
      refine stale fun swept isSweep => ?_
      obtain ⟨sweeping, inPast, rfl⟩ := exists_of_lastSweep isSweep
      have later := ordered sweeping inPast
      have recent := active call.now (Option.mem_some.mpr rfl)
      omega
  · have last := (remembers.seen ip bucket found).2 earlier listed isIP
    have sweeps : (past.length + 1) % sweepEvery = 0 := by
      by_contra other
      have kept : (limiter.sweep call.now).buckets ip = limiter.buckets ip := by
        unfold sweep
        rw [remembers.counted, if_neg other]
      rw [kept, found] at dropped
      cases dropped
    rw [if_pos sweeps] at active
    have recent := active call.now (Option.mem_some.mpr rfl)
    omega

theorem Remembers.allow : (limiter.allow call).2.Remembers (past ++ [call]) := by
  have notIdle : (0 : Int) ≤ idleTTL := by decide
  refine ⟨?_, ?_, ?_, ?_⟩
  · change (limiter.sweep call.now).calls = _
    rw [sweep_calls, remembers.counted]
    simp
  · intro ip bucket found
    change ((limiter.sweep call.now).serve call).2.buckets ip = some bucket
      at found
    by_cases self : ip = call.ip
    · subst self
      rw [serve_buckets_self, Option.some.injEq] at found
      rw [← found]
      refine ⟨⟨call, by simp, rfl, rfl⟩, fun other listed _ => ?_⟩
      rcases List.mem_append.mp listed with inPast | isLast
      · exact ordered other inPast
      · rw [List.mem_singleton.mp isLast]
    · rw [serve_buckets_of_ne self] at found
      obtain ⟨isOld, -⟩ := remembers.sweep_kept found
      obtain ⟨⟨last, inPast, isIP, isSeen⟩, latest⟩ :=
        remembers.seen ip bucket isOld
      refine ⟨⟨last, List.mem_append_left _ inPast, isIP, isSeen⟩, ?_⟩
      intro other listed isOther
      rcases List.mem_append.mp listed with earlier | isLast
      · exact latest other earlier isOther
      · rw [List.mem_singleton.mp isLast] at isOther
        exact absurd isOther.symm self
  · intro ip bucket found swept isSweep
    change ((limiter.sweep call.now).serve call).2.buckets ip = some bucket
      at found
    by_cases self : ip = call.ip
    · subst self
      rw [serve_buckets_self, Option.some.injEq] at found
      rw [← found]
      obtain ⟨sweeping, listed, rfl⟩ := exists_of_lastSweep isSweep
      have notLater : sweeping.now ≤ call.now := by
        rcases List.mem_append.mp listed with inPast | isLast
        · exact ordered sweeping inPast
        · rw [List.mem_singleton.mp isLast]
      simp only
      omega
    · rw [serve_buckets_of_ne self] at found
      exact (remembers.sweep_kept found).2 swept isSweep
  · intro ip missing other listed isIP
    change ((limiter.sweep call.now).serve call).2.buckets ip = none at missing
    by_cases self : ip = call.ip
    · subst self
      rw [serve_buckets_self] at missing
      cases missing
    · rw [serve_buckets_of_ne self] at missing
      rcases List.mem_append.mp listed with inPast | isLast
      · exact remembers.sweep_dropped ordered missing other inPast isIP
      · rw [List.mem_singleton.mp isLast] at isIP
        exact absurd isIP.symm self

end Call

theorem remembers_run
    {limiter : IPLimiter}
    (new : ∀ ip, limiter.buckets ip = none)
    (uncalled : limiter.calls = 0)
    {calls : List Call}
    (ordered : calls.Pairwise fun earlier later => earlier.now ≤ later.now) :
    (Runs.after IPLimiter.allow limiter calls).Remembers calls := by
  induction calls using List.reverseRecOn with
  | nil => exact remembers_new new uncalled
  | append_singleton past call inductionHypothesis =>
      obtain ⟨inPast, -, across⟩ := List.pairwise_append.mp ordered
      rw [Runs.after_append]
      exact (inductionHypothesis inPast).allow fun earlier listed =>
        across earlier listed call List.mem_cons_self

/-- An address has a bucket exactly if one of its calls is active. -/
theorem Remembers.isSome_iff
    {calls : List Call}
    {limiter : IPLimiter}
    (remembers : limiter.Remembers calls)
    (ip : Bytes) :
    (limiter.buckets ip).isSome = true ↔
      ∃ call ∈ calls, call.ip = ip ∧ Active calls call := by
  cases found : limiter.buckets ip with
  | none =>
      refine iff_of_false (by simp) ?_
      rintro ⟨call, listed, isIP, active⟩
      exact remembers.forgotten ip found call listed isIP active
  | some bucket =>
      obtain ⟨⟨call, listed, isIP, isSeen⟩, -⟩ := remembers.seen ip bucket found
      refine iff_of_true rfl ⟨call, listed, isIP, fun swept isSweep => ?_⟩
      rw [isSeen]
      exact remembers.active ip bucket found swept isSweep

/-- The calls up to the last sweep. -/
def untilSweep (calls : List Call) : List Call :=
  calls.take (calls.length - calls.length % sweepEvery)

/-- There are no more buckets than calls since the last sweep, and addresses that
were active when it swept. -/
theorem Remembers.card_le
    {calls : List Call}
    {limiter : IPLimiter}
    (remembers : limiter.Remembers calls)
    {addresses : Finset Bytes}
    (buckets : ∀ ip ∈ addresses, (limiter.buckets ip).isSome = true) :
    addresses.card ≤ calls.length % sweepEvery +
      (((untilSweep calls).filter fun call => Active calls call).map
        Call.ip).toFinset.card := by
  let since := calls.drop (calls.length - calls.length % sweepEvery)
  have few : (since.map Call.ip).toFinset.card ≤ calls.length % sweepEvery := by
    refine (List.toFinset_card_le _).trans ?_
    have remainder := Nat.mod_le calls.length sweepEvery
    simp only [since, List.length_map, List.length_drop]
    omega
  have covered : addresses ⊆ (since.map Call.ip).toFinset ∪
      (((untilSweep calls).filter fun call => Active calls call).map
        Call.ip).toFinset := by
    intro ip listed
    obtain ⟨call, isCall, rfl, active⟩ :=
      (remembers.isSome_iff ip).mp (buckets ip listed)
    rw [← List.take_append_drop (calls.length - calls.length % sweepEvery) calls,
      List.mem_append] at isCall
    rw [Finset.mem_union, List.mem_toFinset, List.mem_toFinset]
    rcases isCall with early | late
    · exact Or.inr (List.mem_map_of_mem
        (List.mem_filter.mpr ⟨early, decide_eq_true active⟩))
    · exact Or.inl (List.mem_map_of_mem late)
  have bounded := (Finset.card_le_card covered).trans (Finset.card_union_le _ _)
  omega

end IPLimiter

/-- Create requests on an open store call the limiter one by one. -/
theorem Server.behind_calls_creates
    {site : Site}
    {server : Server}
    {store : Store.OpenStore}
    (isOpen : server.system = .opened store)
    {requests : List (HttpRequest × Occasion)}
    {code : Bytes}
    (creates : ∀ sent ∈ requests, reached sent.1 = some (.legacyCreate, code)) :
    Runs.behind (step site) (calls site) server
        (requests.map fun sent => .request sent.1 sent.2) =
      requests.map fun sent => call site sent.1 sent.2 := by
  induction requests generalizing server store with
  | nil => rfl
  | cons sent rest inductionHypothesis =>
      obtain ⟨first, others⟩ := List.forall_mem_cons.mp creates
      have here : server.calls site (.request sent.1 sent.2) =
          [call site sent.1 sent.2] := by
        simp only [calls, creation, isOpen, first]
      have next : (server.step site (.request sent.1 sent.2)).system = .opened
          { store with db := (server.made site store sent.1 sent.2).2 } := by
        simp only [step, afterRequest, isOpen, first, Server.next]
      rw [List.map_cons, Runs.behind, here, inductionHypothesis next others]
      rfl

end HttpApi
end Haste
