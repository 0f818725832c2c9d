import Haste.Foundation.TokenBucket
import Haste.Go.Strings
import Haste.Go.Time
import Mathlib.Algebra.Order.Ring.Rat

/-!
# The rate limiter

Paste creation is throttled by one token bucket a client address.  Every
`sweepEvery` calls the limiter drops the buckets that were not asked for longer
than `idleTTL`, and an address whose bucket was dropped starts again with a full
one.  That goes unseen exactly when a bucket is full again after `idleTTL`: the
configuration accepts bursts that take longer to refill.
-/

namespace Haste
namespace HttpApi

open Go
open Foundation

/-- `sweepEvery`: how many calls there are from one sweep to the next. -/
def sweepEvery : Nat := 1024

/-- `idleTTL`. -/
def idleTTL : Int := 10 * minute

/-- An instant or a duration in seconds. -/
def seconds (nanoseconds : Int) : ℚ := nanoseconds / second

/-- A bucket is full after it was idle for longer than `idleTTL`. -/
def RefillsInTime (rps : ℚ) (burst : Int) : Prop :=
  (burst : ℚ) ≤ rps * seconds (idleTTL + 1)

theorem seconds_add (left right : Int) :
    seconds (left + right) = seconds left + seconds right := by
  simp only [seconds, Int.cast_add, add_div]

theorem seconds_mono {earlier later : Int} (ordered : earlier ≤ later) :
    seconds earlier ≤ seconds later := by
  unfold seconds
  apply div_le_div_of_nonneg_right (Int.cast_le.mpr ordered)
  norm_num [second]

/-- `bucket`: the token bucket of an address and its last call. -/
structure Bucket where
  limiter : TokenBucket ℚ
  seen : Int

/-- `ipLimiter`. -/
structure IPLimiter where
  buckets : Bytes → Option Bucket
  calls : Nat
  rps : ℚ
  burst : Int
  rps_pos : 0 < rps
  one_le_burst : 1 ≤ burst

/-- `newIPLimiter`.  No limiter is no limit. -/
def newIPLimiter (rps : ℚ) (burst : Int) : Option IPLimiter :=
  if positive : 0 < rps then
    some
      { buckets := fun _ => none
        calls := 0
        rps := rps
        burst := if burst < 1 then 1 else burst
        rps_pos := positive
        one_le_burst := by split <;> omega }
  else none

/-- A call of `allow`: the address and the instant. -/
structure Call where
  ip : Bytes
  now : Int

namespace IPLimiter

/-- The bucket of an address, which is full if there is none yet. -/
def bucketOf (limiter : IPLimiter) (call : Call) : TokenBucket ℚ :=
  match limiter.buckets call.ip with
  | some bucket => bucket.limiter
  | none => TokenBucket.full limiter.burst (seconds call.now)

/-- The part of `allow` after the sweep: a limiter that only does this never
forgets a bucket. -/
def serve (limiter : IPLimiter) (call : Call) : Bool × IPLimiter :=
  let answer := (limiter.bucketOf call).allow limiter.rps limiter.burst
    (seconds call.now)
  (answer.1,
    { limiter with
      buckets := Function.update limiter.buckets call.ip
        (some ⟨answer.2, call.now⟩) })

/-- The call is counted, and every `sweepEvery` calls the buckets that were idle
for longer than `idleTTL` are deleted. -/
def sweep (limiter : IPLimiter) (now : Int) : IPLimiter :=
  let calls := limiter.calls + 1
  if calls % sweepEvery = 0 then
    { limiter with
      calls
      buckets := fun ip => (limiter.buckets ip).filter fun bucket =>
        !decide (idleTTL < now - bucket.seen) }
  else { limiter with calls }

/-- `allow`. -/
def allow (limiter : IPLimiter) (call : Call) : Bool × IPLimiter :=
  (limiter.sweep call.now).serve call

@[simp] theorem sweep_rps (limiter : IPLimiter) (now : Int) :
    (limiter.sweep now).rps = limiter.rps := by
  simp only [sweep]
  split <;> rfl

@[simp] theorem sweep_burst (limiter : IPLimiter) (now : Int) :
    (limiter.sweep now).burst = limiter.burst := by
  simp only [sweep]
  split <;> rfl

@[simp] theorem sweep_calls (limiter : IPLimiter) (now : Int) :
    (limiter.sweep now).calls = limiter.calls + 1 := by
  simp only [sweep]
  split <;> rfl

/-- A sweep keeps a bucket as it is or drops it, for having been idle. -/
theorem sweep_buckets
    (limiter : IPLimiter)
    (now : Int)
    (ip : Bytes) :
    (limiter.sweep now).buckets ip = limiter.buckets ip ∨
      (limiter.sweep now).buckets ip = none ∧
        ∃ bucket, limiter.buckets ip = some bucket ∧
          idleTTL < now - bucket.seen := by
  simp only [sweep]
  split
  case isFalse => exact Or.inl rfl
  case isTrue =>
    cases found : limiter.buckets ip with
    | none => exact Or.inl (by simp [found])
    | some bucket =>
        by_cases idle : idleTTL < now - bucket.seen
        · exact Or.inr ⟨by simp [found, Option.filter, idle], bucket, rfl, idle⟩
        · exact Or.inl (by simp [found, Option.filter, idle])

/-- A bucket that was asked for just now is not dropped. -/
theorem sweep_buckets_of_seen
    {limiter : IPLimiter}
    {now : Int}
    {ip : Bytes}
    {bucket : Bucket}
    (found : limiter.buckets ip = some bucket)
    (seenNow : bucket.seen = now) :
    (limiter.sweep now).buckets ip = some bucket := by
  rcases limiter.sweep_buckets now ip with same | ⟨-, other, foundOther, idle⟩
  · rw [same, found]
  · rw [found, Option.some.injEq] at foundOther
    rw [← foundOther, seenNow, Int.sub_self] at idle
    exact absurd idle (by decide)

@[simp] theorem serve_rps (limiter : IPLimiter) (call : Call) :
    (limiter.serve call).2.rps = limiter.rps := rfl

@[simp] theorem serve_burst (limiter : IPLimiter) (call : Call) :
    (limiter.serve call).2.burst = limiter.burst := rfl

/-- A call leaves the buckets of other addresses as they are. -/
theorem serve_buckets_of_ne
    {limiter : IPLimiter}
    {call : Call}
    {ip : Bytes}
    (other : ip ≠ call.ip) :
    (limiter.serve call).2.buckets ip = limiter.buckets ip :=
  Function.update_of_ne other _ _

theorem serve_buckets_self (limiter : IPLimiter) (call : Call) :
    (limiter.serve call).2.buckets call.ip =
      some ⟨((limiter.bucketOf call).allow limiter.rps limiter.burst
        (seconds call.now)).2, call.now⟩ :=
  Function.update_self _ _ _

/-! ## Forgetting goes unseen when a bucket refills in time -/

/-- The limiter against one that never forgets: the buckets it holds are the
same, and each one it does not hold is full. -/
structure Forgets (now : Int) (limiter keeping : IPLimiter) : Prop where
  sameRps : keeping.rps = limiter.rps
  sameBurst : keeping.burst = limiter.burst
  held : ∀ ip bucket, limiter.buckets ip = some bucket →
    ∃ kept, keeping.buckets ip = some kept ∧ kept.limiter = bucket.limiter
  sound : ∀ ip bucket, limiter.buckets ip = some bucket →
    bucket.limiter.Sound (seconds bucket.seen) ∧ bucket.seen ≤ now
  dropped : ∀ ip kept, limiter.buckets ip = none →
    keeping.buckets ip = some kept →
      kept.limiter.refilled limiter.rps limiter.burst (seconds now) =
        limiter.burst

/-- A sweep drops only buckets that are full. -/
theorem Forgets.sweep
    {earlier now : Int}
    {limiter keeping : IPLimiter}
    (forgets : Forgets earlier limiter keeping)
    (ordered : earlier ≤ now)
    (inTime : RefillsInTime limiter.rps limiter.burst) :
    Forgets now (limiter.sweep now) keeping where
  sameRps := by rw [forgets.sameRps, sweep_rps]
  sameBurst := by rw [forgets.sameBurst, sweep_burst]
  held ip bucket found := by
    rcases limiter.sweep_buckets now ip with same | ⟨gone, -⟩
    · exact forgets.held ip bucket (same ▸ found)
    · rw [gone] at found
      cases found
  sound ip bucket found := by
    rcases limiter.sweep_buckets now ip with same | ⟨gone, -⟩
    · obtain ⟨sound, seenBefore⟩ := forgets.sound ip bucket (same ▸ found)
      exact ⟨sound, seenBefore.trans ordered⟩
    · rw [gone] at found
      cases found
  dropped ip kept absent keeps := by
    rw [sweep_rps, sweep_burst]
    rcases limiter.sweep_buckets now ip with same | ⟨-, bucket, found, idle⟩
    · have isFull := forgets.dropped ip kept (same ▸ absent) keeps
      exact TokenBucket.refilled_of_later limiter.rps_pos.le
        (seconds_mono ordered) isFull
    · obtain ⟨other, keepsOther, sameBucket⟩ := forgets.held ip bucket found
      rw [keeps, Option.some.injEq] at keepsOther
      obtain ⟨sound, -⟩ := forgets.sound ip bucket found
      rw [keepsOther, sameBucket]
      apply sound.refilled_of_idle limiter.rps_pos.le _ inTime
      rw [← seconds_add]
      exact seconds_mono (by omega)

/-- A bucket that is held on one side only is full, and so is a new one. -/
theorem Forgets.bucketOf_allow
    {limiter keeping : IPLimiter}
    {call : Call}
    (forgets : Forgets call.now limiter keeping) :
    (limiter.bucketOf call).allow limiter.rps limiter.burst (seconds call.now) =
      (keeping.bucketOf call).allow keeping.rps keeping.burst
        (seconds call.now) := by
  have one : (1 : ℚ) ≤ limiter.burst := by exact_mod_cast limiter.one_le_burst
  rw [forgets.sameRps, forgets.sameBurst]
  unfold bucketOf
  cases found : limiter.buckets call.ip with
  | some bucket =>
      obtain ⟨kept, keeps, same⟩ := forgets.held call.ip bucket found
      simp only [keeps, same]
  | none =>
      have new : (TokenBucket.full (limiter.burst : ℚ) (seconds call.now)).allow
          limiter.rps limiter.burst (seconds call.now) =
            (true, ⟨limiter.burst - 1, seconds call.now⟩) :=
        TokenBucket.allow_of_refilled_eq one (TokenBucket.refilled_full _)
      cases keeps : keeping.buckets call.ip with
      | none => simp only [forgets.sameBurst]
      | some kept =>
          rw [new]
          exact (TokenBucket.allow_of_refilled_eq one
            (forgets.dropped call.ip kept found keeps)).symm

theorem Forgets.bucketOf_sound
    {limiter keeping : IPLimiter}
    {call : Call}
    (forgets : Forgets call.now limiter keeping) :
    (limiter.bucketOf call).Sound (seconds call.now) := by
  have one : (1 : ℚ) ≤ limiter.burst := by exact_mod_cast limiter.one_le_burst
  unfold bucketOf
  cases found : limiter.buckets call.ip with
  | none => exact TokenBucket.full_sound _ (zero_le_one.trans one)
  | some bucket =>
      obtain ⟨sound, seenBefore⟩ := forgets.sound call.ip bucket found
      exact sound.later (seconds_mono seenBefore)

/-- The call itself is answered alike, and leaves the same bucket. -/
theorem Forgets.serve
    {limiter keeping : IPLimiter}
    {call : Call}
    (forgets : Forgets call.now limiter keeping) :
    (limiter.serve call).1 = (keeping.serve call).1 ∧
      Forgets call.now (limiter.serve call).2 (keeping.serve call).2 := by
  have sameAnswer := forgets.bucketOf_allow
  have sound := forgets.bucketOf_sound
  have sameVerdict := congrArg Prod.fst sameAnswer
  refine ⟨sameVerdict, forgets.sameRps, forgets.sameBurst, ?_, ?_, ?_⟩
  · intro ip bucket found
    by_cases self : ip = call.ip
    · subst self
      rw [serve_buckets_self, Option.some.injEq] at found
      refine ⟨_, serve_buckets_self keeping call, ?_⟩
      rw [← found, sameAnswer]
    · rw [serve_buckets_of_ne self] at found ⊢
      exact forgets.held ip bucket found
  · intro ip bucket found
    by_cases self : ip = call.ip
    · subst self
      rw [serve_buckets_self, Option.some.injEq] at found
      rw [← found]
      exact ⟨sound.allow, le_refl _⟩
    · rw [serve_buckets_of_ne self] at found
      exact forgets.sound ip bucket found
  · intro ip kept absent keeps
    by_cases self : ip = call.ip
    · subst self
      rw [serve_buckets_self] at absent
      cases absent
    · rw [serve_buckets_of_ne self] at absent keeps
      exact forgets.dropped ip kept absent keeps

/-- The calls to come are in order, none before this instant. -/
def InOrder (now : Int) (calls : List Call) : Prop :=
  (∀ call ∈ calls, now ≤ call.now) ∧
    calls.Pairwise fun earlier later => earlier.now ≤ later.now

/-- With buckets that refill in time, forgetting changes no answer. -/
theorem Forgets.answers_eq
    {now : Int}
    {limiter keeping : IPLimiter}
    (forgets : Forgets now limiter keeping)
    (inTime : RefillsInTime limiter.rps limiter.burst)
    {calls : List Call}
    (inOrder : InOrder now calls) :
    Runs.answers IPLimiter.allow limiter calls =
      Runs.answers IPLimiter.serve keeping calls := by
  apply Runs.answers_eq_of_related (fun rest limiter keeping =>
    ∃ now, InOrder now rest ∧ Forgets now limiter keeping ∧
      RefillsInTime limiter.rps limiter.burst)
  · rintro call rest limiter keeping ⟨now, ⟨after, ordered⟩, forgets, inTime⟩
    obtain ⟨first, others⟩ := List.forall_mem_cons.mp after
    obtain ⟨sameAnswer, next⟩ := (forgets.sweep first inTime).serve
    refine ⟨sameAnswer, call.now, List.pairwise_cons.mp ordered, next, ?_⟩
    rw [IPLimiter.allow, serve_rps, serve_burst, sweep_rps, sweep_burst]
    exact inTime
  · exact ⟨now, inOrder, forgets, inTime⟩

/-! ## Forgetting shows when a bucket does not refill in time -/

section Parameters

variable {rps : ℚ} {burst : Int}

/-- The parameters of the limiter. -/
def HasParameters (rps : ℚ) (burst : Int) (limiter : IPLimiter) : Prop :=
  limiter.rps = rps ∧ limiter.burst = burst

theorem serve_answersFrom (call : Call) :
    TokenBucket.AnswersFrom rps burst (seconds call.now) IPLimiter.serve call
      (HasParameters rps burst) fun limiter => limiter.bucketOf call where
  answer := by
    rintro limiter ⟨rfl, rfl⟩
    rfl
  next := by
    rintro limiter ⟨rfl, rfl⟩
    rw [bucketOf, serve_buckets_self]
  kept _ holds := holds

/-- A limiter that sweeps answers from the bucket its sweep leaves. -/
theorem allow_answersFrom (call : Call) :
    TokenBucket.AnswersFrom rps burst (seconds call.now) IPLimiter.allow call
      (HasParameters rps burst)
      fun limiter => (limiter.sweep call.now).bucketOf call where
  answer := by
    rintro limiter ⟨rfl, rfl⟩
    simp only [IPLimiter.allow, IPLimiter.serve, sweep_rps, sweep_burst]
  next := by
    rintro limiter ⟨rfl, rfl⟩
    have stays := sweep_buckets_of_seen
      (serve_buckets_self (limiter.sweep call.now) call) rfl
    rw [sweep_rps, sweep_burst] at stays
    change IPLimiter.bucketOf ((IPLimiter.serve _ call).2.sweep call.now) call = _
    rw [bucketOf, stays]
  kept := by
    rintro limiter ⟨rfl, rfl⟩
    exact ⟨by rw [IPLimiter.allow, serve_rps, sweep_rps],
      by rw [IPLimiter.allow, serve_burst, sweep_burst]⟩

theorem after_allow_parameters
    {limiter : IPLimiter}
    (calls : List Call)
    (holds : HasParameters rps burst limiter) :
    HasParameters rps burst (Runs.after IPLimiter.allow limiter calls) :=
  Runs.invariant_run_of_forall (HasParameters rps burst)
    (fun limiter call => (allow_answersFrom call).kept limiter) holds

theorem after_serve_parameters
    {limiter : IPLimiter}
    (calls : List Call)
    (holds : HasParameters rps burst limiter) :
    HasParameters rps burst (Runs.after IPLimiter.serve limiter calls) :=
  Runs.invariant_run_of_forall (HasParameters rps burst)
    (fun limiter call => (serve_answersFrom call).kept limiter) holds

end Parameters

/-- The calls of one address, as many as the burst, then calls of another one
until the next call sweeps, then the first address again after `idleTTL`. -/
def quietRun (burst : Nat) : List Call :=
  List.replicate burst ⟨ascii "a", 0⟩ ++
    List.replicate (sweepEvery - 1 - burst % sweepEvery) ⟨ascii "b", 0⟩ ++
    List.replicate burst ⟨ascii "a", idleTTL + 1⟩

theorem quietRun_inOrder (burst : Nat) : InOrder 0 (quietRun burst) := by
  have late : (0 : Int) ≤ idleTTL + 1 := by decide
  constructor
  · intro call listed
    simp only [quietRun, List.mem_append, List.mem_replicate] at listed
    rcases listed with (⟨-, rfl⟩ | ⟨-, rfl⟩) | ⟨-, rfl⟩
    · exact le_refl 0
    · exact le_refl 0
    · exact late
  · simp only [quietRun, List.pairwise_append, List.pairwise_replicate,
      List.mem_append, List.mem_replicate, le_refl, or_true, true_and]
    refine ⟨?_, ?_⟩
    · rintro _ ⟨-, rfl⟩ _ ⟨-, rfl⟩
      exact le_refl 0
    · rintro _ (⟨-, rfl⟩ | ⟨-, rfl⟩) _ ⟨-, rfl⟩
      · exact late
      · exact late

theorem after_serve_buckets_of_ne
    {limiter : IPLimiter}
    {calls : List Call}
    {ip : Bytes}
    (others : ∀ call ∈ calls, ip ≠ call.ip) :
    (Runs.after IPLimiter.serve limiter calls).buckets ip =
      limiter.buckets ip := by
  induction calls generalizing limiter with
  | nil => rfl
  | cons call rest inductionHypothesis =>
      obtain ⟨first, later⟩ := List.forall_mem_cons.mp others
      rw [Runs.after_cons, inductionHypothesis later, serve_buckets_of_ne first]

/-- Every call counts. -/
theorem after_allow_calls (limiter : IPLimiter) (calls : List Call) :
    (Runs.after IPLimiter.allow limiter calls).calls =
      limiter.calls + calls.length := by
  induction calls generalizing limiter with
  | nil => rfl
  | cons call rest inductionHypothesis =>
      have counted : (limiter.allow call).2.calls = limiter.calls + 1 :=
        limiter.sweep_calls call.now
      rw [Runs.after_cons, inductionHypothesis, counted, List.length_cons]
      omega

/-- Calls at one instant leave only buckets seen at this instant. -/
theorem after_allow_seen
    {now : Int}
    {limiter : IPLimiter}
    {calls : List Call}
    (atOnce : ∀ call ∈ calls, call.now = now)
    (seenNow : ∀ ip bucket, limiter.buckets ip = some bucket →
      bucket.seen = now) :
    ∀ ip bucket,
      (Runs.after IPLimiter.allow limiter calls).buckets ip = some bucket →
        bucket.seen = now := by
  induction calls generalizing limiter with
  | nil => exact seenNow
  | cons call rest inductionHypothesis =>
      obtain ⟨first, later⟩ := List.forall_mem_cons.mp atOnce
      apply inductionHypothesis later
      intro ip bucket found
      change ((limiter.sweep call.now).serve call).2.buckets ip = some bucket
        at found
      by_cases self : ip = call.ip
      · subst self
        rw [serve_buckets_self, Option.some.injEq] at found
        rw [← found]
        exact first
      · rw [serve_buckets_of_ne self] at found
        rcases limiter.sweep_buckets call.now ip with same | ⟨gone, -⟩
        · exact seenNow ip bucket (same ▸ found)
        · rw [gone] at found
          cases found

/-- A sweep drops a bucket that was idle for longer than `idleTTL`. -/
theorem sweep_buckets_of_idle
    {limiter : IPLimiter}
    {now : Int}
    {ip : Bytes}
    (sweeps : (limiter.calls + 1) % sweepEvery = 0)
    (idle : ∀ bucket, limiter.buckets ip = some bucket →
      idleTTL < now - bucket.seen) :
    (limiter.sweep now).buckets ip = none := by
  simp only [sweep, if_pos sweeps, Option.filter_eq_none_iff]
  intro bucket found
  simp [idle bucket found]

section QuietRun

variable {limiter : IPLimiter} {count fill : Nat}

/-- The calls of the quiet run before it falls quiet. -/
def busyRun (count fill : Nat) : List Call :=
  List.replicate (count + 1) ⟨ascii "a", 0⟩ ++
    List.replicate fill ⟨ascii "b", 0⟩

/-- A limiter that never forgets is left with an empty bucket. -/
theorem bucketOf_after_serve_busyRun
    (new : ∀ ip, limiter.buckets ip = none)
    (isBurst : limiter.burst = (count + 1 : Nat))
    (now : Int) :
    (Runs.after IPLimiter.serve limiter (busyRun count fill)).bucketOf
        ⟨ascii "a", now⟩ = ⟨0, seconds 0⟩ := by
  have others : ∀ call ∈ List.replicate fill (⟨ascii "b", 0⟩ : Call),
      ascii "a" ≠ call.ip := by
    intro call listed
    rw [List.eq_of_mem_replicate listed]
    decide
  have drained := (serve_answersFrom ⟨ascii "a", 0⟩).after_replicate (count + 1)
    (show HasParameters limiter.rps limiter.burst limiter from ⟨rfl, rfl⟩)
  have empty : TokenBucket.drain limiter.rps (limiter.burst : ℚ) (seconds 0)
      (count + 1) (limiter.bucketOf ⟨ascii "a", 0⟩) = ⟨0, seconds 0⟩ := by
    simp only [bucketOf, new, TokenBucket.full]
    have burstCast : ((count + 1 : Nat) : ℚ) = limiter.burst := by
      rw [isBurst]
      norm_cast
    rw [TokenBucket.drain_last _ burstCast.le (le_refl _), burstCast, sub_self]
  rw [empty] at drained
  -- The bucket is held since the first call, so the later instant is no matter.
  obtain ⟨bucket, held⟩ : ∃ bucket,
      (Runs.after IPLimiter.serve limiter
        (List.replicate (count + 1) ⟨ascii "a", 0⟩)).buckets (ascii "a") =
          some bucket := by
    rw [List.replicate_succ', Runs.after_append, Runs.after_cons, Runs.after_nil]
    exact ⟨_, serve_buckets_self _ ⟨ascii "a", 0⟩⟩
  rw [bucketOf, held] at drained
  rw [busyRun, Runs.after_append, bucketOf, after_serve_buckets_of_ne others,
    held]
  exact drained

/-- A limiter that sweeps when it falls quiet has no bucket of the first
address any more. -/
theorem bucketOf_sweep_after_allow_busyRun
    (new : ∀ ip, limiter.buckets ip = none)
    (sweeps : (limiter.calls + (busyRun count fill).length + 1) % sweepEvery = 0) :
    ((Runs.after IPLimiter.allow limiter (busyRun count fill)).sweep
        (idleTTL + 1)).bucketOf ⟨ascii "a", idleTTL + 1⟩ =
      TokenBucket.full (limiter.burst : ℚ) (seconds (idleTTL + 1)) := by
  have atOnce : ∀ call ∈ busyRun count fill, call.now = 0 := by
    intro call listed
    simp only [busyRun, List.mem_append, List.mem_replicate] at listed
    rcases listed with ⟨-, rfl⟩ | ⟨-, rfl⟩ <;> rfl
  have noneYet : ∀ ip bucket, limiter.buckets ip = some bucket →
      bucket.seen = 0 := by
    intro ip bucket found
    rw [new] at found
    cases found
  have seenNow := after_allow_seen atOnce noneYet
  obtain ⟨-, sameBurst⟩ :=
    after_allow_parameters (busyRun count fill)
      (show HasParameters limiter.rps limiter.burst limiter from ⟨rfl, rfl⟩)
  rw [← after_allow_calls] at sweeps
  have gone : ((Runs.after IPLimiter.allow limiter (busyRun count fill)).sweep
      (idleTTL + 1)).buckets (ascii "a") = none := by
    apply sweep_buckets_of_idle sweeps
    intro bucket found
    rw [seenNow _ bucket found]
    omega
  simp only [bucketOf, gone, sweep_burst, sameBurst]

/-- On the quiet run a limiter that sweeps grants the first address its burst
again, and one that never forgets does not. -/
theorem quietRun_answers_ne
    (new : ∀ ip, limiter.buckets ip = none)
    (noCalls : limiter.calls = 0)
    (late : ¬RefillsInTime limiter.rps limiter.burst) :
    Runs.answers IPLimiter.allow limiter (quietRun limiter.burst.toNat) ≠
      Runs.answers IPLimiter.serve limiter (quietRun limiter.burst.toNat) := by
  have one := limiter.one_le_burst
  obtain ⟨count, isBurst⟩ : ∃ count : Nat, limiter.burst = (count + 1 : Nat) :=
    ⟨limiter.burst.toNat - 1, by omega⟩
  have burstCast : (count : ℚ) + 1 = limiter.burst := by
    rw [isBurst]
    norm_cast
  have parameters : HasParameters limiter.rps limiter.burst limiter := ⟨rfl, rfl⟩
  have isCount : limiter.burst.toNat = count + 1 := by omega
  rw [quietRun, isCount]
  generalize isFill : sweepEvery - 1 - (count + 1) % sweepEvery = fill
  have sweeps :
      (limiter.calls + (busyRun count fill).length + 1) % sweepEvery = 0 := by
    rw [noCalls, busyRun, List.length_append, List.length_replicate,
      List.length_replicate]
    simp only [sweepEvery] at isFill ⊢
    omega
  have granted := ((allow_answersFrom ⟨ascii "a", idleTTL + 1⟩).replicate_granted_iff
    count (after_allow_parameters (busyRun count fill) parameters)).mpr (by
      rw [bucketOf_sweep_after_allow_busyRun new sweeps,
        TokenBucket.refilled_full, burstCast])
  have short : ¬Runs.answers IPLimiter.serve
      (Runs.after IPLimiter.serve limiter (busyRun count fill))
      (List.replicate (count + 1) ⟨ascii "a", idleTTL + 1⟩) =
        List.replicate (count + 1) true := by
    rw [(serve_answersFrom ⟨ascii "a", idleTTL + 1⟩).replicate_granted_iff count
      (after_serve_parameters (busyRun count fill) parameters),
      bucketOf_after_serve_busyRun new isBurst, burstCast, not_le]
    refine (min_le_right _ _).trans_lt ?_
    rw [RefillsInTime, not_le] at late
    simpa [seconds] using late
  intro same
  change Runs.answers IPLimiter.allow limiter (busyRun count fill ++ _) =
    Runs.answers IPLimiter.serve limiter (busyRun count fill ++ _) at same
  rw [Runs.answers_append, Runs.answers_append] at same
  have tail := (List.append_inj same (by simp)).2
  exact short (tail.symm.trans granted)

end QuietRun

end IPLimiter

/-! ## The limiter of a configuration -/

/-- `allow`, whose receiver may be nil. -/
def allow (limiter : Option IPLimiter) (call : Call) : Bool × Option IPLimiter :=
  match limiter with
  | none => (true, none)
  | some limiter => ((limiter.allow call).1, some (limiter.allow call).2)

/-- The limiter that never forgets a bucket. -/
def allowKeeping
    (limiter : Option IPLimiter)
    (call : Call) : Bool × Option IPLimiter :=
  match limiter with
  | none => (true, none)
  | some limiter => ((limiter.serve call).1, some (limiter.serve call).2)

theorem answers_allow (limiter : IPLimiter) (calls : List Call) :
    Runs.answers allow (some limiter) calls =
      Runs.answers IPLimiter.allow limiter calls := by
  apply Runs.answers_eq_of_related fun _ whole part => whole = some part
  · rintro call _ _ part rfl
    exact ⟨rfl, rfl⟩
  · rfl

theorem answers_allowKeeping (limiter : IPLimiter) (calls : List Call) :
    Runs.answers allowKeeping (some limiter) calls =
      Runs.answers IPLimiter.serve limiter calls := by
  apply Runs.answers_eq_of_related fun _ whole part => whole = some part
  · rintro call _ _ part rfl
    exact ⟨rfl, rfl⟩
  · rfl

/-- A new limiter holds no bucket, and has its parameters as given. -/
theorem newIPLimiter_eq
    {rps : ℚ}
    {burst : Int}
    (positive : 0 < rps)
    (one : 1 ≤ burst) :
    ∃ limiter, newIPLimiter rps burst = some limiter ∧
      (∀ ip, limiter.buckets ip = none) ∧ limiter.calls = 0 ∧
      limiter.rps = rps ∧ limiter.burst = burst := by
  rw [newIPLimiter, dif_pos positive]
  refine ⟨_, rfl, fun _ => rfl, rfl, rfl, ?_⟩
  exact if_neg (not_lt.mpr one)

/-- **The rate limiter.**  For every rate and burst, the limiter answers all
calls in order as one that never forgets a bucket if and only if a bucket is
full again after it was idle for `idleTTL`. -/
theorem forgetting_unseen_iff
    (rps : ℚ)
    (burst : Int)
    (positive : 0 < rps)
    (one : 1 ≤ burst) :
    (∀ calls : List Call,
      (calls.Pairwise fun earlier later => earlier.now ≤ later.now) →
        Runs.answers allow (newIPLimiter rps burst) calls =
          Runs.answers allowKeeping (newIPLimiter rps burst) calls) ↔
      RefillsInTime rps burst := by
  obtain ⟨limiter, isNew, new, noCalls, rfl, rfl⟩ :=
    newIPLimiter_eq positive one
  simp only [isNew, answers_allow, answers_allowKeeping]
  constructor
  · intro unseen
    by_contra late
    apply IPLimiter.quietRun_answers_ne new noCalls late
    exact unseen _ (IPLimiter.quietRun_inOrder _).2
  · intro inTime calls ordered
    cases calls with
    | nil => rfl
    | cons call rest =>
        have fresh : IPLimiter.Forgets call.now limiter limiter :=
          { sameRps := rfl
            sameBurst := rfl
            held := fun ip _ found => by
              rw [new ip] at found
              cases found
            sound := fun ip _ found => by
              rw [new ip] at found
              cases found
            dropped := fun ip _ _ found => by
              rw [new ip] at found
              cases found }
        apply fresh.answers_eq inTime
        refine ⟨List.forall_mem_cons.mpr ⟨le_refl _, ?_⟩, ordered⟩
        exact (List.pairwise_cons.mp ordered).1

/-- The default of one a second with a burst of twenty refills in time. -/
theorem forgetting_unseen_default :
    (0 : ℚ) < 1 ∧ (1 : Int) ≤ 20 ∧
    ∀ calls : List Call,
      (calls.Pairwise fun earlier later => earlier.now ≤ later.now) →
        Runs.answers allow (newIPLimiter 1 20) calls =
          Runs.answers allowKeeping (newIPLimiter 1 20) calls :=
  ⟨by norm_num, by norm_num,
    (forgetting_unseen_iff 1 20 (by norm_num) (by norm_num)).mpr (by
      norm_num [RefillsInTime, seconds, idleTTL, minute, second])⟩

/-- With one paste in a hundred seconds and a burst of twenty, an address that
used its burst up has six tokens after ten quiet minutes.  Dropping its bucket
grants it the burst again. -/
theorem forgetting_grants_burst :
    ((IPLimiter.quietRun 20).Pairwise fun earlier later =>
      earlier.now ≤ later.now) ∧
    Runs.answers allow (newIPLimiter (1 / 100) 20) (IPLimiter.quietRun 20) ≠
      Runs.answers allowKeeping (newIPLimiter (1 / 100) 20)
        (IPLimiter.quietRun 20) := by
  refine ⟨(IPLimiter.quietRun_inOrder 20).2, ?_⟩
  have positive : (0 : ℚ) < 1 / 100 := by norm_num
  have one : (1 : Int) ≤ 20 := by norm_num
  obtain ⟨limiter, isNew, new, noCalls, isRps, isBurst⟩ :=
    newIPLimiter_eq positive one
  rw [isNew, answers_allow, answers_allowKeeping]
  have late : ¬RefillsInTime limiter.rps limiter.burst := by
    rw [isRps, isBurst]
    norm_num [RefillsInTime, seconds, idleTTL, minute, second]
  have differ := IPLimiter.quietRun_answers_ne new noCalls late
  rw [isBurst] at differ
  exact differ

end HttpApi
end Haste
