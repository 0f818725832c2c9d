import Mathlib.Data.Set.Function
import Mathlib.Data.Finset.Card
import Mathlib.Order.Interval.Finset.Nat

/-!
# Cycle walking

A permutation of a finite superset is turned into a permutation of a subset by
applying it again and again until the result falls into the subset.  The walk
has no counter of its own: it ends because the orbit of a point of the subset
returns to it, after at most as many applications as there are points outside,
plus one.
-/

namespace Foundation
namespace CycleWalk

variable {α : Type*}

/-- Apply `step` until the result lies in the target.  `none` means that
`fuel` applications were not enough. -/
def walk
    (step : α → α)
    (target : α → Prop) [DecidablePred target] : Nat → α → Option α
  | 0, _ => none
  | fuel + 1, point =>
      if target (step point) then some (step point)
      else walk step target fuel (step point)

variable
  {step : α → α}
  {target : α → Prop} [DecidablePred target]

/-- A walk ends with the first iterate that lies in the target. -/
theorem walk_eq_some_iff
    (fuel : Nat)
    (point result : α) :
    walk step target fuel point = some result ↔
      ∃ count < fuel, step^[count + 1] point = result ∧ target result ∧
        ∀ earlier < count, ¬target (step^[earlier + 1] point) := by
  induction fuel generalizing point with
  | zero => simp [walk]
  | succ fuel inductionHypothesis =>
      unfold walk
      split
      · rename_i hit
        constructor
        · intro equal
          refine ⟨0, by omega, Option.some.inj equal, ?_, by omega⟩
          exact Option.some.inj equal ▸ hit
        · rintro ⟨count, _, reached, _, avoids⟩
          cases count with
          | zero => exact congrArg some reached
          | succ count => exact absurd hit (avoids 0 (by omega))
      · rename_i missed
        rw [inductionHypothesis]
        constructor
        · rintro ⟨count, bound, reached, inTarget, avoids⟩
          refine ⟨count + 1, by omega, reached, inTarget, ?_⟩
          intro earlier before
          cases earlier with
          | zero => exact missed
          | succ earlier => exact avoids earlier (by omega)
        · rintro ⟨count, bound, reached, inTarget, avoids⟩
          cases count with
          | zero =>
              rw [← reached] at inTarget
              exact absurd inTarget missed
          | succ count =>
              refine ⟨count, by omega, reached, inTarget, ?_⟩
              intro earlier before
              exact avoids (earlier + 1) (by omega)

/-- Iterates of a point stay in a set that the step maps to itself. -/
theorem iterate_mem
    {superset : Finset α}
    (maps : ∀ point ∈ superset, step point ∈ superset)
    {point : α}
    (member : point ∈ superset)
    (count : Nat) :
    step^[count] point ∈ superset := by
  induction count with
  | zero => exact member
  | succ count inductionHypothesis =>
      rw [Function.iterate_succ_apply']
      exact maps _ inductionHypothesis

/-- Equal iterates of an injective step cancel to a return to the later
starting point. -/
theorem iterate_cancel
    {superset : Finset α}
    (maps : ∀ point ∈ superset, step point ∈ superset)
    (injective : Set.InjOn step superset)
    {left right : α}
    (leftMember : left ∈ superset)
    (rightMember : right ∈ superset)
    (count extra : Nat)
    (equal : step^[count] left = step^[count + extra] right) :
    left = step^[extra] right := by
  induction count with
  | zero => simpa using equal
  | succ count inductionHypothesis =>
      apply inductionHypothesis
      rw [show count + 1 + extra = (count + extra) + 1 by omega,
        Function.iterate_succ_apply', Function.iterate_succ_apply'] at equal
      exact injective (iterate_mem maps leftMember _)
        (iterate_mem maps rightMember _) equal

/-- A walk from a point of the target ends after at most one application more
than there are points of the superset outside the target. -/
theorem walk_isSome
    {superset : Finset α}
    (maps : ∀ point ∈ superset, step point ∈ superset)
    (injective : Set.InjOn step superset)
    {point : α}
    (member : point ∈ superset)
    (inTarget : target point)
    {fuel : Nat}
    (enough : (superset.filter fun other => ¬target other).card < fuel) :
    (walk step target fuel point).isSome := by
  by_contra unfinished
  have stuck : ∀ count < fuel, ¬target (step^[count + 1] point) := by
    intro count
    induction count using Nat.strong_induction_on with
    | h count earlier =>
        intro bound hit
        apply unfinished
        rw [Option.isSome_iff_exists]
        refine ⟨_, (walk_eq_some_iff fuel point _).mpr
          ⟨count, bound, rfl, hit, ?_⟩⟩
        intro before less
        exact earlier before less (by omega)
  have visits : ∀ count ∈ Finset.range fuel,
      step^[count + 1] point ∈ superset.filter fun other => ¬target other := by
    intro count present
    rw [Finset.mem_filter]
    exact ⟨iterate_mem maps member _, stuck count (Finset.mem_range.mp present)⟩
  obtain ⟨first, firstIn, second, secondIn, different, equal⟩ :=
    Finset.exists_ne_map_eq_of_card_lt_of_maps_to
      (by simpa using enough) visits
  have noReturn : ∀ low high, low < high → high < fuel →
      step^[low + 1] point ≠ step^[high + 1] point := by
    intro low high less bound same
    have returned := iterate_cancel maps injective member member
      (low + 1) (high - low) (by rw [same]; congr 1; omega)
    have outside := stuck (high - low - 1) (by omega)
    rw [show high - low - 1 + 1 = high - low by omega, ← returned] at outside
    exact outside inTarget
  rw [Finset.mem_range] at firstIn secondIn
  rcases Nat.lt_or_gt_of_ne different with less | less
  · exact noReturn first second less secondIn equal
  · exact noReturn second first less firstIn equal.symm

/-- Two points of the target never walk to the same point. -/
theorem walk_injective
    {superset : Finset α}
    (maps : ∀ point ∈ superset, step point ∈ superset)
    (injective : Set.InjOn step superset)
    {left right result : α}
    (leftMember : left ∈ superset)
    (rightMember : right ∈ superset)
    (leftTarget : target left)
    (rightTarget : target right)
    {leftFuel rightFuel : Nat}
    (leftWalk : walk step target leftFuel left = some result)
    (rightWalk : walk step target rightFuel right = some result) :
    left = right := by
  obtain ⟨leftCount, _, leftReached, _, leftAvoids⟩ :=
    (walk_eq_some_iff _ _ _).mp leftWalk
  obtain ⟨rightCount, _, rightReached, _, rightAvoids⟩ :=
    (walk_eq_some_iff _ _ _).mp rightWalk
  rcases Nat.lt_trichotomy leftCount rightCount with less | same | greater
  · have returned := iterate_cancel maps injective leftMember rightMember
      (leftCount + 1) (rightCount - leftCount)
      (by rw [leftReached, ← rightReached]; congr 1; omega)
    have outside := rightAvoids (rightCount - leftCount - 1) (by omega)
    rw [show rightCount - leftCount - 1 + 1 = rightCount - leftCount by omega,
      ← returned] at outside
    exact absurd leftTarget outside
  · subst same
    have returned := iterate_cancel maps injective leftMember rightMember
      (leftCount + 1) 0 (by rw [leftReached, ← rightReached])
    exact returned
  · have returned := iterate_cancel maps injective rightMember leftMember
      (rightCount + 1) (leftCount - rightCount)
      (by rw [rightReached, ← leftReached]; congr 1; omega)
    have outside := leftAvoids (leftCount - rightCount - 1) (by omega)
    rw [show leftCount - rightCount - 1 + 1 = leftCount - rightCount by omega,
      ← returned] at outside
    exact absurd rightTarget outside

/-- Every point of the target is reached from a point of the target. -/
theorem walk_surjective
    {superset : Finset α}
    (maps : ∀ point ∈ superset, step point ∈ superset)
    (injective : Set.InjOn step superset)
    {fuel : Nat}
    (enough : (superset.filter fun other => ¬target other).card < fuel)
    {result : α}
    (member : result ∈ superset)
    (inTarget : target result) :
    ∃ point ∈ superset, target point ∧
      walk step target fuel point = some result := by
  classical
  let inside := superset.filter target
  have ends : ∀ point ∈ inside, (walk step target fuel point).isSome := by
    intro point present
    obtain ⟨pointMember, pointTarget⟩ := Finset.mem_filter.mp present
    exact walk_isSome maps injective pointMember pointTarget enough
  let total : α → α := fun point => (walk step target fuel point).getD point
  have totalWalk : ∀ point ∈ inside,
      walk step target fuel point = some (total point) := by
    intro point present
    obtain ⟨reached, equal⟩ := Option.isSome_iff_exists.mp (ends point present)
    simp [total, equal]
  have totalMaps : ∀ point ∈ inside, total point ∈ inside := by
    intro point present
    obtain ⟨count, _, reached, reachedTarget, _⟩ :=
      (walk_eq_some_iff _ _ _).mp (totalWalk point present)
    refine Finset.mem_filter.mpr ⟨?_, reachedTarget⟩
    rw [← reached]
    exact iterate_mem maps (Finset.mem_filter.mp present).1 _
  have totalInjective : Set.InjOn total inside := by
    intro left leftIn right rightIn equal
    have leftPresent := Finset.mem_filter.mp leftIn
    have rightPresent := Finset.mem_filter.mp rightIn
    exact walk_injective maps injective leftPresent.1 rightPresent.1
      leftPresent.2 rightPresent.2
      (totalWalk left leftIn) (equal ▸ totalWalk right rightIn)
  obtain ⟨point, present, equal⟩ :=
    Finset.surjOn_of_injOn_of_card_le total totalMaps totalInjective le_rfl
      (Finset.mem_coe.mpr (Finset.mem_filter.mpr ⟨member, inTarget⟩))
  refine ⟨point, (Finset.mem_filter.mp present).1,
    (Finset.mem_filter.mp present).2, ?_⟩
  rw [totalWalk point present, equal]

end CycleWalk
end Foundation
