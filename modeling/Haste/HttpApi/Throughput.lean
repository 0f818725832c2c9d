import Haste.HttpApi.RateLimit

/-!
# What the limiter lets through

Whatever the order of calls, an address is let through in a stretch of time no
more often than its burst, what the rate refills, and once more the burst for
every `idleTTL` that fits into the stretch, which is what forgetting an idle
bucket may give away.  The argument is a budget: each call pays for what it is
granted out of the tokens of its bucket, and dropping the bucket is paid for by
the time it was idle.
-/

namespace Haste
namespace HttpApi

open Go
open Foundation

/-- How many calls of an address are let through. -/
def admitted (ip : Bytes) (calls : List Call) (answers : List Bool) : Nat :=
  (calls.zip answers).countP fun pair => pair.1.ip == ip && pair.2

namespace IPLimiter

/-- Each bucket is sound, and was last asked for by now. -/
def SoundAt (now : Int) (limiter : IPLimiter) : Prop :=
  ∀ ip bucket, limiter.buckets ip = some bucket →
    bucket.limiter.Sound (seconds bucket.seen) ∧ bucket.seen ≤ now

theorem SoundAt.sweep
    {earlier now : Int}
    {limiter : IPLimiter}
    (sound : limiter.SoundAt earlier)
    (ordered : earlier ≤ now) :
    (limiter.sweep now).SoundAt now := by
  intro ip bucket found
  rcases limiter.sweep_buckets now ip with same | ⟨gone, -⟩
  · obtain ⟨isSound, seenBefore⟩ := sound ip bucket (same ▸ found)
    exact ⟨isSound, seenBefore.trans ordered⟩
  · rw [gone] at found
    cases found

theorem SoundAt.bucketOf
    {limiter : IPLimiter}
    {call : Call}
    (sound : limiter.SoundAt call.now) :
    (limiter.bucketOf call).Sound (seconds call.now) := by
  have one : (1 : ℚ) ≤ limiter.burst := by exact_mod_cast limiter.one_le_burst
  unfold IPLimiter.bucketOf
  cases found : limiter.buckets call.ip with
  | none => exact TokenBucket.full_sound _ (zero_le_one.trans one)
  | some bucket =>
      obtain ⟨isSound, seenBefore⟩ := sound call.ip bucket found
      exact isSound.later (seconds_mono seenBefore)

theorem SoundAt.serve
    {limiter : IPLimiter}
    {call : Call}
    (sound : limiter.SoundAt call.now) :
    (limiter.serve call).2.SoundAt call.now := by
  intro ip bucket found
  by_cases self : ip = call.ip
  · subst self
    rw [serve_buckets_self, Option.some.injEq] at found
    rw [← found]
    exact ⟨sound.bucketOf.allow, le_refl _⟩
  · rw [serve_buckets_of_ne self] at found
    exact sound ip bucket found

theorem SoundAt.allow
    {earlier : Int}
    {limiter : IPLimiter}
    {call : Call}
    (sound : limiter.SoundAt earlier)
    (ordered : earlier ≤ call.now) :
    (limiter.allow call).2.SoundAt call.now :=
  (sound.sweep ordered).serve

@[simp] theorem allow_rps (limiter : IPLimiter) (call : Call) :
    (limiter.allow call).2.rps = limiter.rps :=
  sweep_rps limiter call.now

@[simp] theorem allow_burst (limiter : IPLimiter) (call : Call) :
    (limiter.allow call).2.burst = limiter.burst :=
  sweep_burst limiter call.now

theorem seconds_nonneg {duration : Int} (later : 0 ≤ duration) :
    0 ≤ seconds duration := by
  have ordered := seconds_mono later
  simpa [seconds] using ordered

/-! ## The budget of an address -/

/-- What a stretch of time may give away beyond the refill, so that a gap longer
than `idleTTL` pays for a full bucket. -/
structure Surplus (rps : ℚ) (burst : Int) (surplus : Int → ℚ) : Prop where
  nonneg : ∀ duration, 0 ≤ duration → 0 ≤ surplus duration
  mono : ∀ duration longer, duration ≤ longer →
    surplus duration ≤ surplus longer
  pays : ∀ gap rest, idleTTL < gap → 0 ≤ rest →
    burst + surplus rest ≤ rps * seconds gap + surplus (gap + rest)

/-- A burst for every `idleTTL` pays for any number of drops. -/
theorem surplus_drops (limiter : IPLimiter) :
    Surplus limiter.rps limiter.burst fun duration =>
      limiter.burst * (duration / idleTTL : Int) := by
  have positive : (0 : Int) < idleTTL := by decide
  have burstNonneg : (0 : ℚ) ≤ limiter.burst := by
    exact_mod_cast zero_le_one.trans limiter.one_le_burst
  refine ⟨?_, ?_, ?_⟩
  · intro duration later
    have quotient := Int.ediv_nonneg later positive.le
    exact mul_nonneg burstNonneg (by exact_mod_cast quotient)
  · intro duration longer le
    have quotients := Int.ediv_le_ediv positive le
    exact mul_le_mul_of_nonneg_left (by exact_mod_cast quotients) burstNonneg
  · intro gap rest idle later
    have oneMore : rest / idleTTL + 1 ≤ (gap + rest) / idleTTL := by
      rw [← Int.add_mul_ediv_right rest 1 positive.ne', one_mul]
      exact Int.ediv_le_ediv positive (by omega)
    have cast : ((rest / idleTTL : Int) : ℚ) + 1 ≤
        ((gap + rest) / idleTTL : Int) := by exact_mod_cast oneMore
    have scaled := mul_le_mul_of_nonneg_left cast burstNonneg
    have refill : 0 ≤ limiter.rps * seconds gap :=
      mul_nonneg limiter.rps_pos.le (seconds_nonneg (by omega))
    linarith

/-- Where a bucket refills in time, no surplus is needed. -/
theorem surplus_none
    {limiter : IPLimiter}
    (inTime : RefillsInTime limiter.rps limiter.burst) :
    Surplus limiter.rps limiter.burst fun _ => 0 := by
  refine ⟨fun _ _ => le_rfl, fun _ _ _ => le_rfl, ?_⟩
  intro gap rest idle _
  have longer := mul_le_mul_of_nonneg_left
    (seconds_mono (show idleTTL + 1 ≤ gap by omega)) limiter.rps_pos.le
  have refill : (limiter.burst : ℚ) ≤ limiter.rps * seconds (idleTTL + 1) :=
    inTime
  linarith

/-- What an address can still be granted until `last`. -/
def budget
    (surplus : Int → ℚ)
    (ip : Bytes)
    (now last : Int)
    (limiter : IPLimiter) : ℚ :=
  match limiter.buckets ip with
  | some bucket =>
      bucket.limiter.refilled limiter.rps limiter.burst (seconds bucket.seen) +
        limiter.rps * seconds (last - bucket.seen) +
        surplus (last - bucket.seen)
  | none =>
      limiter.burst + limiter.rps * seconds (last - now) + surplus (last - now)

section Budget

variable
  {limiter : IPLimiter}
  {surplus : Int → ℚ}
  (covers : Surplus limiter.rps limiter.burst surplus)
  {ip : Bytes}
include covers

theorem burst_add_mono
    {duration longer : Int}
    (le : duration ≤ longer) :
    limiter.burst + limiter.rps * seconds duration + surplus duration ≤
      limiter.burst + limiter.rps * seconds longer + surplus longer := by
  have refill := mul_le_mul_of_nonneg_left (seconds_mono le) limiter.rps_pos.le
  have more := covers.mono duration longer le
  linarith

theorem budget_nonneg
    {now last : Int}
    (sound : limiter.SoundAt now)
    (ordered : now ≤ last) :
    0 ≤ limiter.budget surplus ip now last := by
  have burstNonneg : (0 : ℚ) ≤ limiter.burst := by
    exact_mod_cast zero_le_one.trans limiter.one_le_burst
  unfold budget
  cases found : limiter.buckets ip with
  | none =>
      have refill := mul_nonneg limiter.rps_pos.le
        (seconds_nonneg (show 0 ≤ last - now by omega))
      have more := covers.nonneg (last - now) (by omega)
      simp only
      linarith
  | some bucket =>
      obtain ⟨isSound, seenBefore⟩ := sound ip bucket found
      have tokens := isSound.refilled_nonneg limiter.rps_pos.le burstNonneg
      have refill := mul_nonneg limiter.rps_pos.le
        (seconds_nonneg (show 0 ≤ last - bucket.seen by omega))
      have more := covers.nonneg (last - bucket.seen) (by omega)
      simp only
      linarith

/-- A sweep takes nothing out of the budget: the bucket it drops was idle long
enough. -/
theorem budget_sweep
    {earlier now last : Int}
    (sound : limiter.SoundAt earlier)
    (ordered : earlier ≤ now)
    (within : now ≤ last) :
    (limiter.sweep now).budget surplus ip now last ≤
      limiter.budget surplus ip earlier last := by
  have burstNonneg : (0 : ℚ) ≤ limiter.burst := by
    exact_mod_cast zero_le_one.trans limiter.one_le_burst
  unfold budget
  rw [sweep_rps, sweep_burst]
  rcases limiter.sweep_buckets now ip with same | ⟨gone, bucket, found, idle⟩
  · rw [same]
    cases limiter.buckets ip with
    | none => exact burst_add_mono covers (by omega)
    | some bucket => exact le_rfl
  · obtain ⟨isSound, seenBefore⟩ := sound ip bucket found
    rw [gone, found]
    have tokens := isSound.refilled_nonneg limiter.rps_pos.le burstNonneg
    have paid := covers.pays (now - bucket.seen) (last - now) idle (by omega)
    have split := seconds_add (now - bucket.seen) (last - now)
    rw [show now - bucket.seen + (last - now) = last - bucket.seen by omega]
      at paid split
    simp only
    rw [split]
    linarith

/-- What is available to an address at its call is within its budget. -/
theorem refilled_le_budget
    {call : Call}
    {last : Int}
    (sound : limiter.SoundAt call.now) :
    (limiter.bucketOf call).refilled limiter.rps limiter.burst
        (seconds call.now) +
        limiter.rps * seconds (last - call.now) + surplus (last - call.now) ≤
      limiter.budget surplus call.ip call.now last := by
  unfold budget bucketOf
  cases found : limiter.buckets call.ip with
  | none => simp only [TokenBucket.refilled_full, le_refl]
  | some bucket =>
      obtain ⟨isSound, seenBefore⟩ := sound call.ip bucket found
      have gained : bucket.limiter.refilled limiter.rps limiter.burst _ ≤ _ :=
        bucket.limiter.refilled_le_add limiter.rps_pos.le
          (seconds_mono seenBefore)
      have more := covers.mono (last - call.now) (last - bucket.seen) (by omega)
      have split := seconds_add (call.now - bucket.seen) (last - call.now)
      have gap := seconds_add (call.now - bucket.seen) bucket.seen
      rw [show call.now - bucket.seen + (last - call.now) = last - bucket.seen
        by omega] at split
      rw [Int.sub_add_cancel] at gap
      simp only
      rw [split]
      have spread : seconds call.now - seconds bucket.seen =
          seconds (call.now - bucket.seen) := by linarith
      rw [spread] at gained
      linarith

omit covers in
/-- After a call of an address its budget is what was available, less what the
call was granted. -/
theorem budget_serve_self (call : Call) (last : Int) :
    (if (limiter.serve call).1 = true then 1 else 0) +
        (limiter.serve call).2.budget surplus call.ip call.now last =
      (limiter.bucketOf call).refilled limiter.rps limiter.burst
          (seconds call.now) +
        limiter.rps * seconds (last - call.now) + surplus (last - call.now) := by
  have spent : ((limiter.bucketOf call).allow limiter.rps limiter.burst
      (seconds call.now)).2.refilled limiter.rps limiter.burst
        (seconds call.now) = _ :=
    TokenBucket.refilled_allow (limiter.bucketOf call) (seconds call.now)
  have granted : (limiter.serve call).1 = true ↔
      1 ≤ (limiter.bucketOf call).refilled limiter.rps limiter.burst
        (seconds call.now) := by
    change ((limiter.bucketOf call).allow _ _ _).1 = true ↔ _
    unfold TokenBucket.allow
    split <;> simp_all
  unfold budget
  rw [serve_buckets_self]
  simp only [serve_rps, serve_burst]
  rw [spent]
  by_cases enough : 1 ≤ (limiter.bucketOf call).refilled limiter.rps
      limiter.burst (seconds call.now)
  · rw [if_pos (granted.mpr enough), if_pos enough]
    ring
  · rw [if_neg (mt granted.mp enough), if_neg enough]
    ring

/-- A call is paid out of the budget of its address, and costs no other one
anything. -/
theorem budget_serve
    {call : Call}
    {last : Int}
    (sound : limiter.SoundAt call.now) :
    (if call.ip = ip ∧ (limiter.serve call).1 = true then 1 else 0) +
        (limiter.serve call).2.budget surplus ip call.now last ≤
      limiter.budget surplus ip call.now last := by
  by_cases self : call.ip = ip
  · subst self
    simp only [true_and, budget_serve_self]
    exact refilled_le_budget covers sound
  · have same : (limiter.serve call).2.buckets ip = limiter.buckets ip :=
      serve_buckets_of_ne (Ne.symm self)
    unfold budget
    rw [same]
    simp [self]

/-- The same for a whole call. -/
theorem budget_allow
    {call : Call}
    {earlier last : Int}
    (sound : limiter.SoundAt earlier)
    (ordered : earlier ≤ call.now)
    (within : call.now ≤ last) :
    (if call.ip = ip ∧ (limiter.allow call).1 = true then 1 else 0) +
        (limiter.allow call).2.budget surplus ip call.now last ≤
      limiter.budget surplus ip earlier last := by
  have swept : Surplus (limiter.sweep call.now).rps
      (limiter.sweep call.now).burst surplus := by
    rw [sweep_rps, sweep_burst]
    exact covers
  exact (budget_serve swept (sound.sweep ordered)).trans
    (budget_sweep covers sound ordered within)

end Budget

/-! ## Runs -/

theorem admitted_cons
    (ip : Bytes)
    (call : Call)
    (rest : List Call)
    (limiter : IPLimiter) :
    (admitted ip (call :: rest)
        (Runs.answers IPLimiter.allow limiter (call :: rest)) : ℚ) =
      (if call.ip = ip ∧ (limiter.allow call).1 = true then 1 else 0) +
        admitted ip rest
          (Runs.answers IPLimiter.allow (limiter.allow call).2 rest) := by
  unfold admitted
  rw [Runs.answers, List.zip_cons_cons, List.countP_cons]
  simp only [Bool.and_eq_true, beq_iff_eq, Nat.cast_add, Nat.cast_ite,
    Nat.cast_one, Nat.cast_zero]
  exact add_comm _ _

section Stretch

variable
  {surplus : Int → ℚ}
  {ip : Bytes}
  {last : Int}

/-- What an address is granted until `last` is within its budget. -/
theorem admitted_le_budget
    {now : Int}
    {limiter : IPLimiter}
    (covers : Surplus limiter.rps limiter.burst surplus)
    (sound : limiter.SoundAt now)
    (upTo : now ≤ last)
    {calls : List Call}
    (inOrder : InOrder now calls)
    (within : ∀ call ∈ calls, call.now ≤ last) :
    (admitted ip calls (Runs.answers IPLimiter.allow limiter calls) : ℚ) ≤
      limiter.budget surplus ip now last := by
  induction calls generalizing limiter now with
  | nil =>
      simp only [admitted, Runs.answers, List.zip_nil_left, List.countP_nil,
        Nat.cast_zero]
      exact budget_nonneg covers sound upTo
  | cons call rest inductionHypothesis =>
      obtain ⟨first, -⟩ := List.forall_mem_cons.mp inOrder.1
      obtain ⟨here, later⟩ := List.forall_mem_cons.mp within
      have nextCovers : Surplus (limiter.allow call).2.rps
          (limiter.allow call).2.burst surplus := by
        rwa [allow_rps, allow_burst]
      have paid : _ + _ ≤ limiter.budget surplus ip now last :=
        budget_allow covers sound first here
      have others := inductionHypothesis nextCovers (sound.allow first) here
        (List.pairwise_cons.mp inOrder.2) later
      rw [admitted_cons]
      linarith

/-- From any state, an address is granted at most its burst, the refill and the
surplus of the stretch of time. -/
theorem admitted_le
    {now : Int}
    {limiter : IPLimiter}
    (covers : Surplus limiter.rps limiter.burst surplus)
    (sound : limiter.SoundAt now)
    (upTo : now ≤ last)
    {calls : List Call}
    (inOrder : InOrder now calls)
    (within : ∀ call ∈ calls, call.now ≤ last) :
    (admitted ip calls (Runs.answers IPLimiter.allow limiter calls) : ℚ) ≤
      limiter.burst + limiter.rps * seconds (last - now) +
        surplus (last - now) := by
  induction calls generalizing limiter now with
  | nil =>
      have burstNonneg : (0 : ℚ) ≤ limiter.burst := by
        exact_mod_cast zero_le_one.trans limiter.one_le_burst
      have refill := mul_nonneg limiter.rps_pos.le
        (seconds_nonneg (show 0 ≤ last - now by omega))
      have more := covers.nonneg (last - now) (by omega)
      simp only [admitted, Runs.answers, List.zip_nil_left, List.countP_nil,
        Nat.cast_zero]
      linarith
  | cons call rest inductionHypothesis =>
      obtain ⟨first, -⟩ := List.forall_mem_cons.mp inOrder.1
      obtain ⟨here, later⟩ := List.forall_mem_cons.mp within
      have nextOrder := List.pairwise_cons.mp inOrder.2
      have nextCovers : Surplus (limiter.allow call).2.rps
          (limiter.allow call).2.burst surplus := by
        rwa [allow_rps, allow_burst]
      have shorter := burst_add_mono covers
        (show last - call.now ≤ last - now by omega)
      rw [admitted_cons]
      by_cases self : call.ip = ip
      · subst self
        -- From the first call of the address on, its bucket pays.
        have others : (admitted call.ip _ _ : ℚ) ≤ _ :=
          admitted_le_budget nextCovers (sound.allow first) here nextOrder later
        have paid := @budget_serve_self (limiter.sweep call.now) surplus call last
        have available : ((limiter.sweep call.now).bucketOf call).refilled
            limiter.rps limiter.burst (seconds call.now) ≤ limiter.burst :=
          TokenBucket.refilled_le _ _
        rw [sweep_rps, sweep_burst] at paid
        simp only [true_and]
        change (if (IPLimiter.serve _ call).1 = true then (1 : ℚ) else 0) + _ ≤ _
        change _ ≤ (IPLimiter.serve _ call).2.budget _ _ _ _ at others
        linarith
      · have others := inductionHypothesis nextCovers (sound.allow first) here
          nextOrder later
        rw [allow_rps, allow_burst] at others
        simp only [self, false_and, if_false, zero_add]
        linarith

end Stretch

theorem soundAt_after
    {now last : Int}
    {limiter : IPLimiter}
    (sound : limiter.SoundAt now)
    (upTo : now ≤ last)
    {calls : List Call}
    (inOrder : InOrder now calls)
    (within : ∀ call ∈ calls, call.now ≤ last) :
    (Runs.after IPLimiter.allow limiter calls).SoundAt last := by
  induction calls generalizing limiter now with
  | nil =>
      intro ip bucket found
      obtain ⟨isSound, seenBefore⟩ := sound ip bucket found
      exact ⟨isSound, seenBefore.trans upTo⟩
  | cons call rest inductionHypothesis =>
      obtain ⟨first, -⟩ := List.forall_mem_cons.mp inOrder.1
      obtain ⟨here, later⟩ := List.forall_mem_cons.mp within
      exact inductionHypothesis (sound.allow first) here
        (List.pairwise_cons.mp inOrder.2) later

/-- A limiter without buckets is sound at any instant of a run on it. -/
theorem soundAt_after_new
    {last : Int}
    {limiter : IPLimiter}
    (new : ∀ ip, limiter.buckets ip = none)
    {calls : List Call}
    (ordered : calls.Pairwise fun earlier later => earlier.now ≤ later.now)
    (within : ∀ call ∈ calls, call.now ≤ last) :
    (Runs.after IPLimiter.allow limiter calls).SoundAt last := by
  have sound : ∀ now, limiter.SoundAt now := by
    intro now ip bucket found
    rw [new] at found
    cases found
  cases calls with
  | nil => exact sound last
  | cons call rest =>
      refine soundAt_after (sound call.now) (within call List.mem_cons_self)
        ⟨List.forall_mem_cons.mpr ⟨le_refl _, ?_⟩, ordered⟩ within
      exact (List.pairwise_cons.mp ordered).1

theorem after_allow_parameters_eq (limiter : IPLimiter) (calls : List Call) :
    (Runs.after IPLimiter.allow limiter calls).rps = limiter.rps ∧
      (Runs.after IPLimiter.allow limiter calls).burst = limiter.burst :=
  after_allow_parameters calls ⟨rfl, rfl⟩

end IPLimiter

theorem after_allow (limiter : IPLimiter) (calls : List Call) :
    Runs.after allow (some limiter) calls =
      some (Runs.after IPLimiter.allow limiter calls) := by
  induction calls generalizing limiter with
  | nil => rfl
  | cons call rest inductionHypothesis => exact inductionHypothesis _

end HttpApi
end Haste
