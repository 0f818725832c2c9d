import Haste.Foundation.Runs
import Mathlib.Algebra.Order.Field.Basic
import Mathlib.Tactic.Linarith
import Mathlib.Tactic.Ring

/-!
# Token buckets

A bucket holds up to `burst` tokens and is refilled at a constant rate.  A
request takes one token if there is one, and leaves the bucket as it is if there
is none.  Tokens and instants are numbers of an ordered field, so refilling is
exact.  Two facts carry what follows: a bucket that nothing was taken from for
`burst / rate` is full, and requests at one instant are all granted exactly when
the tokens at that instant cover them.
-/

namespace Foundation

/-- The tokens left after the last request that was granted, and its instant. -/
structure TokenBucket (K : Type*) where
  tokens : K
  last : K

namespace TokenBucket

variable {K : Type*} [Field K] [LinearOrder K] {rate burst : K}

/-- A full bucket. -/
def full (burst now : K) : TokenBucket K := ⟨burst, now⟩

/-- The tokens of a bucket at a later instant. -/
def refilled (rate burst : K) (bucket : TokenBucket K) (now : K) : K :=
  min burst (bucket.tokens + rate * (now - bucket.last))

/-- One request. -/
def allow
    (rate burst : K)
    (bucket : TokenBucket K)
    (now : K) : Bool × TokenBucket K :=
  if 1 ≤ bucket.refilled rate burst now then
    (true, ⟨bucket.refilled rate burst now - 1, now⟩)
  else (false, bucket)

/-- A number of requests at one instant. -/
def drain (rate burst now : K) : Nat → TokenBucket K → TokenBucket K
  | 0, bucket => bucket
  | count + 1, bucket =>
      drain rate burst now count (bucket.allow rate burst now).2

theorem refilled_le (bucket : TokenBucket K) (now : K) :
    bucket.refilled rate burst now ≤ burst :=
  min_le_left _ _

@[simp] theorem refilled_full (now : K) :
    (full burst now).refilled rate burst now = burst := by
  simp [full, refilled]

/-- At the instant of its last grant a bucket has the tokens it was left. -/
theorem refilled_last
    {tokens : K}
    (now : K)
    (within : tokens ≤ burst) :
    (⟨tokens, now⟩ : TokenBucket K).refilled rate burst now = tokens := by
  simp [refilled, within]

/-- A full bucket grants the request. -/
theorem allow_of_refilled_eq
    {bucket : TokenBucket K}
    {now : K}
    (one : 1 ≤ burst)
    (isFull : bucket.refilled rate burst now = burst) :
    bucket.allow rate burst now = (true, ⟨burst - 1, now⟩) := by
  unfold allow
  rw [isFull, if_pos one]

/-- What every bucket keeps: no debt, and no grant in the future. -/
structure Sound (bucket : TokenBucket K) (now : K) : Prop where
  tokens_nonneg : 0 ≤ bucket.tokens
  last_le : bucket.last ≤ now

theorem Sound.later
    {bucket : TokenBucket K}
    {now later : K}
    (sound : bucket.Sound now)
    (ordered : now ≤ later) :
    bucket.Sound later :=
  ⟨sound.tokens_nonneg, sound.last_le.trans ordered⟩

theorem full_sound (now : K) (nonneg : 0 ≤ burst) : (full burst now).Sound now :=
  ⟨nonneg, le_refl now⟩

/-- A machine that, in the states of an invariant, answers an action from a
bucket inside it. -/
structure AnswersFrom
    (rate burst now : K)
    {State Action : Type*}
    (react : State → Action → Bool × State)
    (action : Action)
    (invariant : State → Prop)
    (bucket : State → TokenBucket K) : Prop where
  answer : ∀ state, invariant state →
    (react state action).1 = ((bucket state).allow rate burst now).1
  next : ∀ state, invariant state →
    bucket (react state action).2 = ((bucket state).allow rate burst now).2
  kept : ∀ state, invariant state → invariant (react state action).2

section Machine

variable {State Action : Type*} {react : State → Action → Bool × State}
  {action : Action} {invariant : State → Prop} {bucket : State → TokenBucket K}
  {now : K}

/-- The bucket after the action was repeated. -/
theorem AnswersFrom.after_replicate
    (answersFrom : AnswersFrom rate burst now react action invariant bucket)
    (count : Nat)
    {state : State}
    (holds : invariant state) :
    bucket (Runs.after react state (List.replicate count action)) =
      drain rate burst now count (bucket state) := by
  induction count generalizing state with
  | zero => rfl
  | succ count inductionHypothesis =>
      rw [List.replicate_succ, Runs.after_cons,
        inductionHypothesis (answersFrom.kept state holds),
        answersFrom.next state holds, drain]

end Machine

variable [IsStrictOrderedRing K]

theorem Sound.allow
    {bucket : TokenBucket K}
    {now : K}
    (sound : bucket.Sound now) :
    (bucket.allow rate burst now).2.Sound now := by
  unfold TokenBucket.allow
  split
  case isTrue enough => exact ⟨sub_nonneg.mpr enough, le_refl now⟩
  case isFalse => exact sound

/-- A bucket that was idle for the time of a whole refill is full. -/
theorem Sound.refilled_of_idle
    {bucket : TokenBucket K}
    {seen now idle : K}
    (sound : bucket.Sound seen)
    (rateNonneg : 0 ≤ rate)
    (isIdle : seen + idle ≤ now)
    (wholeRefill : burst ≤ rate * idle) :
    bucket.refilled rate burst now = burst := by
  apply min_eq_left
  have idleSince : idle ≤ now - bucket.last := by
    have grantedBefore := sound.last_le
    linarith
  have gained : rate * idle ≤ rate * (now - bucket.last) :=
    mul_le_mul_of_nonneg_left idleSince rateNonneg
  have noDebt := sound.tokens_nonneg
  linarith

/-- A full bucket stays full. -/
theorem refilled_of_later
    {bucket : TokenBucket K}
    {now later : K}
    (rateNonneg : 0 ≤ rate)
    (ordered : now ≤ later)
    (isFull : bucket.refilled rate burst now = burst) :
    bucket.refilled rate burst later = burst := by
  have enough : burst ≤ bucket.tokens + rate * (now - bucket.last) :=
    min_eq_left_iff.mp isFull
  have gained : rate * (now - bucket.last) ≤ rate * (later - bucket.last) :=
    mul_le_mul_of_nonneg_left (sub_le_sub_right ordered _) rateNonneg
  exact min_eq_left (by linarith)

/-- A bucket gains no more than the rate allows. -/
theorem refilled_le_add
    (bucket : TokenBucket K)
    {now later : K}
    (rateNonneg : 0 ≤ rate)
    (ordered : now ≤ later) :
    bucket.refilled rate burst later ≤
      bucket.refilled rate burst now + rate * (later - now) := by
  have gained : 0 ≤ rate * (later - now) :=
    mul_nonneg rateNonneg (sub_nonneg.mpr ordered)
  unfold refilled
  rw [min_add]
  refine le_min ?_ ?_
  · exact (min_le_left _ _).trans (le_add_of_nonneg_right gained)
  · refine (min_le_right _ _).trans (le_of_eq ?_)
    ring

theorem Sound.refilled_nonneg
    {bucket : TokenBucket K}
    {now : K}
    (sound : bucket.Sound now)
    (rateNonneg : 0 ≤ rate)
    (burstNonneg : 0 ≤ burst) :
    0 ≤ bucket.refilled rate burst now :=
  le_min burstNonneg (add_nonneg sound.tokens_nonneg
    (mul_nonneg rateNonneg (sub_nonneg.mpr sound.last_le)))

/-! ## Requests at one instant -/

theorem refilled_allow (bucket : TokenBucket K) (now : K) :
    (bucket.allow rate burst now).2.refilled rate burst now =
      if 1 ≤ bucket.refilled rate burst now then
        bucket.refilled rate burst now - 1
      else bucket.refilled rate burst now := by
  unfold allow
  split
  case isTrue =>
    have within : bucket.refilled rate burst now ≤ burst := refilled_le bucket now
    exact refilled_last now (by linarith)
  case isFalse => rfl

/-- What the requests at the instant of the last grant leave. -/
theorem drain_last
    {count : Nat}
    {tokens : K}
    (now : K)
    (covered : (count : K) ≤ tokens)
    (within : tokens ≤ burst) :
    drain rate burst now count ⟨tokens, now⟩ = ⟨tokens - count, now⟩ := by
  induction count generalizing tokens with
  | zero => simp [drain]
  | succ count inductionHypothesis =>
      rw [Nat.cast_succ] at covered
      have nonneg : (0 : K) ≤ count := Nat.cast_nonneg count
      have granted : (⟨tokens, now⟩ : TokenBucket K).allow rate burst now =
          (true, ⟨tokens - 1, now⟩) := by
        unfold allow
        rw [refilled_last now within, if_pos (by linarith)]
      rw [drain, granted, inductionHypothesis (by linarith) (by linarith),
        Nat.cast_succ]
      congr 1
      ring

/-- Repeated at one instant, an action is granted every time if and only if the
tokens at that instant cover all of them. -/
theorem AnswersFrom.replicate_granted_iff
    {State Action : Type*}
    {react : State → Action → Bool × State}
    {action : Action}
    {invariant : State → Prop}
    {bucket : State → TokenBucket K}
    {now : K}
    (answersFrom : AnswersFrom rate burst now react action invariant bucket)
    (count : Nat)
    {state : State}
    (holds : invariant state) :
    Runs.answers react state (List.replicate (count + 1) action) =
        List.replicate (count + 1) true ↔
      (count : K) + 1 ≤ (bucket state).refilled rate burst now := by
  have granted_iff : ∀ state, invariant state →
      ((react state action).1 = true ↔
        1 ≤ (bucket state).refilled rate burst now) := by
    intro state holds
    rw [answersFrom.answer state holds, allow]
    split <;> simp_all
  induction count generalizing state with
  | zero => simp [Runs.answers, granted_iff state holds]
  | succ count inductionHypothesis =>
      have nonneg : (0 : K) ≤ count := Nat.cast_nonneg count
      have tail := inductionHypothesis (answersFrom.kept state holds)
      rw [answersFrom.next state holds, refilled_allow] at tail
      change (react state action).1 :: Runs.answers react (react state action).2
          (List.replicate (count + 1) action) =
        true :: List.replicate (count + 1) true ↔ _
      rw [List.cons.injEq]
      refine (and_congr (granted_iff state holds) tail).trans ?_
      rw [Nat.cast_succ]
      constructor
      · rintro ⟨enough, covered⟩
        rw [if_pos enough] at covered
        linarith
      · intro covered
        have enough : 1 ≤ (bucket state).refilled rate burst now := by linarith
        rw [if_pos enough]
        exact ⟨enough, by linarith⟩

end TokenBucket

end Foundation
