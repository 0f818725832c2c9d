import Haste.HttpApi.CacheControl
import Haste.HttpApi.Head

/-!
# The lifetime that is left

`remainingAt` rounds what is left of a lifetime to minutes, to hours or to days,
and takes the first of these whose count stays below the next unit.  Each unit
is rounded from the same duration, so a longer duration is never printed as a
shorter span.
-/

namespace Haste
namespace HttpApi

open Go

/-! ## Rounding to a unit -/

/-- Half a unit is rounded up. -/
theorem durationRound_eq
    {left half : Int}
    (positive : 0 < half)
    (inRange : left + 2 * half ≤ maxDuration) :
    durationRound left (2 * half) = (left + half) / (2 * half) * (2 * half) := by
  have split := Int.mul_ediv_add_emod left (2 * half)
  have nonneg := Int.emod_nonneg left (show 2 * half ≠ 0 by omega)
  have small := Int.emod_lt_of_pos left (show 0 < 2 * half by omega)
  unfold durationRound
  generalize left / (2 * half) = quotient at *
  generalize left % (2 * half) = rest at *
  subst split
  simp only
  split
  case isTrue down =>
    have same : (2 * half * quotient + rest + half) / (2 * half) = quotient := by
      rw [add_assoc, Int.mul_add_ediv_left _ _ (by omega),
        Int.ediv_eq_zero_of_lt (by omega) (by omega), add_zero]
    rw [same]
    ring
  case isFalse up =>
    have shift : 2 * half * quotient + rest + half =
        2 * half * (quotient + 1) + (rest - half) := by ring
    have same : (2 * half * quotient + rest + half) / (2 * half) = quotient + 1 := by
      rw [shift, Int.mul_add_ediv_left _ _ (by omega),
        Int.ediv_eq_zero_of_lt (by omega) (by omega), add_zero]
    rw [if_pos (by omega), same]
    ring

/-- A whole number of units is no fraction that could be rounded. -/
theorem durationBy_of_whole
    {round : ℚ → ℚ}
    {unit : Int}
    (positive : 0 < unit)
    {count : Int}
    (zero : round (0 : Int) = (0 : Int))
    (whole : round count = count) :
    durationBy round unit (count * unit) = count := by
  have nonzero : unit ≠ 0 := positive.ne'
  have none : ((0 : Int) : ℚ) / unit = (0 : Int) := by simp
  have same : (count : ℚ) + (0 : Int) = count := by simp
  rw [durationBy, Int.mul_tdiv_cancel _ nonzero, Int.mul_tmod_left, zero, none, zero,
    whole, same, whole]

/-- A duration rounded to a unit is counted in it without a further error. -/
theorem truncate_durationRound
    {round : ℚ → ℚ}
    (whole : ∀ count : Int, |count| < 2 ^ 53 → round count = count)
    {left half : Int}
    (large : 2 ^ 10 ≤ half)
    (positive : 0 < left)
    (inRange : left + 2 * half ≤ maxDuration) :
    truncate (durationBy round (2 * half) (durationRound left (2 * half))) =
      (left + half) / (2 * half) := by
  have nonneg : 0 ≤ (left + half) / (2 * half) :=
    Int.ediv_nonneg (by omega) (by omega)
  have small : (left + half) / (2 * half) < 2 ^ 53 := by
    rw [Int.ediv_lt_iff_lt_mul (by omega)]
    unfold maxDuration at inRange
    omega
  rw [durationRound_eq (by omega) inRange, durationBy_of_whole (by omega)
    (whole 0 (by norm_num)) (whole _ (by rwa [abs_of_nonneg nonneg])),
    truncate_intCast]

/-- Without rounding the units are a quotient. -/
theorem durationBy_id
    {unit : Int}
    (positive : 0 < unit)
    (duration : Int) :
    durationBy id unit duration = (duration : ℚ) / unit := by
  have nonzero : (unit : ℚ) ≠ 0 := Int.cast_ne_zero.mpr positive.ne'
  have split : (duration : ℚ) = unit * duration.tdiv unit + duration.tmod unit := by
    exact_mod_cast (Int.mul_tdiv_add_tmod duration unit).symm
  simp only [durationBy, id]
  rw [split]
  field_simp

/-! ## What is printed -/

/-- The units of a printed span. -/
inductive SpanUnit
  | minutes
  | hours
  | days
  deriving DecidableEq, Repr

/-- The length of a unit. -/
def SpanUnit.length : SpanUnit → Int
  | .minutes => minute
  | .hours => hour
  | .days => 24 * hour

/-- The text of a unit. -/
def SpanUnit.label : SpanUnit → Bytes
  | .minutes => utf8 " 分鐘"
  | .hours => utf8 " 小時"
  | .days => utf8 " 天"

/-- A count of a unit. -/
structure Span where
  count : Nat
  unit : SpanUnit
  deriving DecidableEq, Repr

namespace Span

/-- The text of a span. -/
def text (span : Span) : Bytes := number span.count ++ span.unit.label

/-- How long a span is. -/
def length (span : Span) : Int := span.count * span.unit.length

/-- The text of a span says its count and its unit. -/
theorem text_injective : Function.Injective text := by
  have blank : ∀ unit : SpanUnit, ∃ rest, unit.label = 0x20 :: rest := by
    intro unit
    cases unit <;> exact ⟨_, rfl⟩
  have labels : Function.Injective SpanUnit.label := by
    intro unit other same
    cases unit <;> cases other <;> first | rfl | exact absurd same (by decide)
  have counted : ∀ span : Span,
      span.text.takeWhile (· != 0x20) = itoa span.count := by
    intro span
    obtain ⟨rest, isLabel⟩ := blank span.unit
    obtain ⟨first, others, isText, digits, _⟩ := itoa_digits span.count
    have noBlank : ∀ byte ∈ itoa span.count, (byte != 0x20) = true := by
      intro byte listed
      rw [isText] at listed
      refine bne_iff_ne.mpr ?_
      rintro rfl
      exact absurd (digits _ listed) (by decide)
    rw [text, number_natCast, isLabel, List.takeWhile_append_of_pos noBlank,
      List.takeWhile_cons_of_neg (by decide), List.append_nil]
  intro span other same
  have sameCount : span.count = other.count := by
    apply itoa_injective
    rw [← counted, same, counted]
  have sameUnit : span.unit = other.unit := by
    apply labels
    rw [text, text, sameCount] at same
    exact List.append_cancel_left same
  cases span
  cases other
  rw [Span.mk.injEq]
  exact ⟨sameCount, sameUnit⟩

end Span

/-- How many units are nearest to a duration, half a unit rounded up. -/
def nearestCount (unit left : Int) : Nat := ((left + unit / 2) / unit).toNat

/-- The span that is nearest to what is left. -/
def nearestSpan (left : Int) : Span :=
  if nearestCount minute left < 60 then ⟨max (nearestCount minute left) 1, .minutes⟩
  else if nearestCount hour left < 24 then ⟨nearestCount hour left, .hours⟩
  else ⟨nearestCount (24 * hour) left, .days⟩

/-- A count is within half a unit of what it counts. -/
theorem nearestCount_near
    {unit left : Int}
    (even : unit % 2 = 0)
    (positive : 0 < unit)
    (nonneg : 0 ≤ left) :
    2 * |(nearestCount unit left : Int) * unit - left| ≤ unit := by
  have isNat : 0 ≤ (left + unit / 2) / unit :=
    Int.ediv_nonneg (by omega) positive.le
  have split := Int.mul_ediv_add_emod (left + unit / 2) unit
  have low := Int.emod_nonneg (left + unit / 2) positive.ne'
  have high := Int.emod_lt_of_pos (left + unit / 2) positive
  have near : |(left + unit / 2) / unit * unit - left| ≤ unit / 2 := by
    rw [Int.mul_comm, abs_le]
    constructor <;> omega
  rw [nearestCount, Int.toNat_of_nonneg isNat]
  omega

/-- From half a unit on the count is not zero. -/
theorem nearestCount_pos
    {unit left : Int}
    (even : unit % 2 = 0)
    (positive : 0 < unit)
    (long : unit ≤ 2 * left) :
    1 ≤ nearestCount unit left := by
  have one : 1 ≤ (left + unit / 2) / unit :=
    (Int.le_ediv_iff_mul_le positive).mpr (by omega)
  unfold nearestCount
  omega

theorem nearestCount_mono
    {unit left later : Int}
    (positive : 0 < unit)
    (le : left ≤ later) :
    nearestCount unit left ≤ nearestCount unit later :=
  Int.toNat_le_toNat (Int.ediv_le_ediv positive (by omega))

/-- A span as it should be printed for what is left. -/
structure Span.Tells (span : Span) (left : Int) : Prop where
  count_pos : 1 ≤ span.count
  minutes : span.unit = .minutes → span.count ≤ 59
  hours : span.unit = .hours → span.count ≤ 23
  /-- At most half a unit off, from half a minute on. -/
  nearest : 30 * second ≤ left → 2 * |span.length - left| ≤ span.unit.length
  /-- Less than half a minute is one minute. -/
  shortest : left < 30 * second → span = ⟨1, .minutes⟩

/-- A count that is near tells what is left, from half a minute on. -/
theorem Span.tells_of_near
    {span : Span}
    {left : Int}
    (some : 1 ≤ span.count)
    (minutes : span.unit = .minutes → span.count ≤ 59)
    (hours : span.unit = .hours → span.count ≤ 23)
    (near : 2 * |span.length - left| ≤ span.unit.length)
    (long : 30 * second ≤ left) :
    span.Tells left :=
  ⟨some, minutes, hours, fun _ => near, fun short => absurd long (not_le.mpr short)⟩

/-- Below half a minute one minute is printed. -/
theorem nearestSpan_of_short
    {left : Int}
    (positive : 0 < left)
    (short : left < 30 * second) :
    nearestSpan left = ⟨1, .minutes⟩ := by
  have none : nearestCount minute left = 0 := by
    unfold nearestCount minute
    unfold second at *
    omega
  rw [nearestSpan, none]
  rfl

theorem nearestSpan_tells {left : Int} (positive : 0 < left) :
    (nearestSpan left).Tells left := by
  by_cases short : left < 30 * second
  · rw [nearestSpan_of_short positive short]
    exact ⟨le_rfl, by simp, by simp, fun long => absurd short (not_lt.mpr long),
      fun _ => rfl⟩
  · have long := not_lt.mp short
    have inMinutes : 2 * |(nearestCount minute left : Int) * minute - left| ≤ minute :=
      nearestCount_near (by decide) (by decide) positive.le
    have inHours : 2 * |(nearestCount hour left : Int) * hour - left| ≤ hour :=
      nearestCount_near (by decide) (by decide) positive.le
    have inDays : 2 * |(nearestCount (24 * hour) left : Int) * (24 * hour) - left| ≤
        24 * hour :=
      nearestCount_near (by decide) (by decide) positive.le
    unfold nearestSpan
    split
    case isTrue few =>
      have some : 1 ≤ nearestCount minute left := by
        apply nearestCount_pos (by decide) (by decide)
        unfold minute second at *
        omega
      rw [max_eq_left some]
      exact Span.tells_of_near some (fun _ => Nat.le_of_lt_succ few) (by simp)
        inMinutes long
    case isFalse manyMinutes =>
      split
      case isTrue few =>
        have some : 1 ≤ nearestCount hour left := by
          -- An hour is reached from 59 minutes and a half on.
          have above := le_abs_self ((nearestCount minute left : Int) * minute - left)
          apply nearestCount_pos (by decide) (by decide)
          generalize nearestCount minute left = count at *
          unfold hour minute second at *
          omega
        exact Span.tells_of_near some (by simp) (fun _ => Nat.le_of_lt_succ few)
          inHours long
      case isFalse manyHours =>
        have some : 1 ≤ nearestCount (24 * hour) left := by
          have above := le_abs_self ((nearestCount hour left : Int) * hour - left)
          apply nearestCount_pos (by decide) (by decide)
          generalize nearestCount hour left = count at *
          unfold hour second at *
          omega
        exact Span.tells_of_near some (by simp) (by simp) inDays long

/-- A unit is not left for a shorter one, and its counts do not become fewer. -/
theorem nearestSpan_mono
    {left later : Int}
    (positive : 0 < left)
    (le : left ≤ later) :
    (nearestSpan left).length ≤ (nearestSpan later).length := by
  have minutes := nearestCount_mono (show 0 < minute by decide) le
  have hours := nearestCount_mono (show 0 < hour by decide) le
  have days := nearestCount_mono (show 0 < 24 * hour by decide) le
  have some := (nearestSpan_tells (lt_of_lt_of_le positive le)).count_pos
  unfold nearestSpan at some ⊢
  generalize nearestCount minute left = inMinutes at *
  generalize nearestCount hour left = inHours at *
  generalize nearestCount (24 * hour) left = inDays at *
  generalize nearestCount minute later = laterMinutes at *
  generalize nearestCount hour later = laterHours at *
  generalize nearestCount (24 * hour) later = laterDays at *
  by_cases inMinutesLater : laterMinutes < 60
  · rw [if_pos (lt_of_le_of_lt minutes inMinutesLater), if_pos inMinutesLater]
    simp only [Span.length, SpanUnit.length, minute, second]
    omega
  · rw [if_neg inMinutesLater] at some ⊢
    by_cases inHoursLater : laterHours < 24
    · rw [if_pos inHoursLater] at some ⊢
      rw [if_pos (lt_of_le_of_lt hours inHoursLater)]
      split
      all_goals
        simp only [Span.length, SpanUnit.length, minute, hour, second] at some ⊢
        omega
    · rw [if_neg inHoursLater] at some ⊢
      split
      case isTrue =>
        simp only [Span.length, SpanUnit.length, minute, hour, second] at some ⊢
        omega
      case isFalse =>
        split
        all_goals
          simp only [Span.length, SpanUnit.length, hour, second] at some ⊢
          omega

/-- What is left of the lifetime of a paste at an instant, with room for half a
day below the greatest duration. -/
structure Left (paste : Store.Paste) (now left : Int) : Prop where
  expiresAt : paste.expiresAt = some (now + left)
  positive : 0 < left
  inRange : left + 12 * hour ≤ maxDuration

theorem natCast_nearestCount
    {unit left : Int}
    (unitPositive : 0 < unit)
    (positive : 0 < left) :
    (nearestCount unit left : Int) = (left + unit / 2) / unit :=
  Int.toNat_of_nonneg (Int.ediv_nonneg (by omega) (by omega))

/-- The nearest span is printed, if the rounding keeps whole numbers and the
count of days. -/
theorem remainingBy_eq
    {round : ℚ → ℚ}
    (whole : ∀ count : Int, |count| < 2 ^ 53 → round count = count)
    {paste : Store.Paste}
    {now left : Int}
    (isLeft : Left paste now left)
    (wholeDays : 24 ≤ nearestCount hour left →
      truncate (round (durationBy round hour (left + 12 * hour) / 24)) =
        (left + 12 * hour) / (24 * hour)) :
    remainingBy round paste now = (nearestSpan left).text := by
  obtain ⟨expiresAt, positive, inRange⟩ := isLeft
  have isLeft : timeSub (now + left) now = left := by
    unfold timeSub
    rw [add_sub_cancel_left]
    unfold hour second maxDuration at *
    omega
  have inMinutes : truncate (durationBy round minute (durationRound left minute)) =
      nearestCount minute left := by
    have isMinute : minute = 2 * (30 * second) := by decide
    rw [natCast_nearestCount (by decide) positive, isMinute,
      Int.mul_ediv_cancel_left _ (by decide)]
    apply truncate_durationRound whole (by decide) positive
    unfold hour second at *
    omega
  have inHours : truncate (durationBy round hour (durationRound left hour)) =
      nearestCount hour left := by
    have isHour : hour = 2 * (1800 * second) := by decide
    rw [natCast_nearestCount (by decide) positive, isHour,
      Int.mul_ediv_cancel_left _ (by decide)]
    apply truncate_durationRound whole (by decide) positive
    unfold hour second at *
    omega
  have unwrapped : (left + 12 * hour).bmod (2 ^ 64) = left + 12 * hour := by
    unfold hour second maxDuration at *
    exact Int.bmod_eq_of_le (by omega) (by omega)
  unfold remainingBy nearestSpan
  simp only [expiresAt, isLeft, if_neg (not_le.mpr positive), inMinutes, inHours,
    unwrapped]
  by_cases fewMinutes : nearestCount minute left < 60
  · rw [if_pos (by omega), if_pos fewMinutes]
    exact congrArg (number · ++ _) (Nat.cast_max _ _).symm
  · rw [if_neg (by omega), if_neg fewMinutes]
    by_cases fewHours : nearestCount hour left < 24
    · rw [if_pos (by omega), if_pos fewHours]
      rfl
    · have halfDay : 24 * hour / 2 = 12 * hour := by decide
      have inDays := natCast_nearestCount (show 0 < 24 * hour by decide) positive
      rw [halfDay] at inDays
      rw [if_neg (by omega), if_neg fewHours, wholeDays (by omega)]
      exact congrArg (number · ++ _) inDays.symm

theorem remainingBy_id
    {paste : Store.Paste}
    {now left : Int}
    (isLeft : Left paste now left) :
    remainingBy id paste now = (nearestSpan left).text := by
  refine remainingBy_eq (fun _ _ => rfl) isLeft fun _ => ?_
  have quotient : durationBy id hour (left + 12 * hour) / 24 =
      ((left + 12 * hour : Int) : ℚ) / (24 * hour : Int) := by
    rw [durationBy_id (by decide)]
    push_cast
    rw [div_div, mul_comm (hour : ℚ)]
  have positive := isLeft.positive
  rw [id, quotient, truncate_div (by unfold hour second; omega) (by decide)]

/-- Below a day the code is as good as with exact arithmetic. -/
theorem remainingAt_eq
    {paste : Store.Paste}
    {now left : Int}
    (isLeft : Left paste now left)
    (short : nearestCount hour left < 24) :
    remainingAt paste now = (nearestSpan left).text := by
  exact remainingBy_eq (fun _ => float64_intCast) isLeft
    fun long => absurd short (not_lt.mpr long)

/-- With exact arithmetic a paste that has this long left prints one span, which
tells it to half a unit and is no longer than that of a paste with more left. -/
theorem remaining_nearest_monotone
    {paste laterPaste : Store.Paste}
    {now laterNow left later : Int}
    (isLeft : Left paste now left)
    (isLater : Left laterPaste laterNow later)
    (le : left ≤ later) :
    ∃ span laterSpan : Span,
      remainingBy id paste now = span.text ∧
      (∀ other : Span, remainingBy id paste now = other.text → other = span) ∧
      span.Tells left ∧
      remainingBy id laterPaste laterNow = laterSpan.text ∧
      (∀ other : Span, remainingBy id laterPaste laterNow = other.text →
        other = laterSpan) ∧
      laterSpan.Tells later ∧
      span.length ≤ laterSpan.length := by
  have printed := remainingBy_id isLeft
  have laterPrinted := remainingBy_id isLater
  refine ⟨nearestSpan left, nearestSpan later, printed, ?_,
    nearestSpan_tells isLeft.positive, laterPrinted, ?_,
    nearestSpan_tells isLater.positive, nearestSpan_mono isLeft.positive le⟩
  · intro other same
    exact Span.text_injective (same.symm.trans printed)
  · intro other same
    exact Span.text_injective (same.symm.trans laterPrinted)

/-- An instant before a boundary of a day and the boundary itself. -/
theorem remaining_near_day :
    let paste (expiresAt : Int) : Store.Paste :=
      ⟨1, ascii "0", [], [], 1, 1, 10, 0, some expiresAt⟩
    let left := 7 * (24 * hour) + 12 * hour
    ∃ span laterSpan : Span,
      remainingBy id (paste (left - 1)) 0 = span.text ∧
      (∀ other : Span, remainingBy id (paste (left - 1)) 0 = other.text →
        other = span) ∧
      span.Tells (left - 1) ∧
      remainingBy id (paste (5 + left)) 5 = laterSpan.text ∧
      (∀ other : Span, remainingBy id (paste (5 + left)) 5 = other.text →
        other = laterSpan) ∧
      laterSpan.Tells left ∧
      span.length ≤ laterSpan.length := by
  intro paste left
  have before : Left (paste (left - 1)) 0 (left - 1) :=
    ⟨by simp [paste], by decide, by decide⟩
  have boundary : Left (paste (5 + left)) 5 left := ⟨rfl, by decide, by decide⟩
  exact remaining_nearest_monotone before boundary (by decide)

end HttpApi
end Haste
