import Mathlib.Algebra.Order.Ring.Int

/-!
# Go instants and durations

A `time.Time` is an integer number of nanoseconds since the Unix epoch and may
lie before it; a `time.Duration` is an integer number of nanoseconds.  `Unix`
takes the whole seconds by rounding down, on both sides of the epoch.
-/

namespace Haste
namespace Go

/-- `time.Second`. -/
def second : Int := 1000000000

/-- `time.Minute`. -/
def minute : Int := 60 * second

/-- `time.Hour`. -/
def hour : Int := 3600 * second

/-- `Time.Unix`: the seconds since the epoch, rounded down. -/
def unix (instant : Int) : Int := instant / second

/-- `time.Unix(seconds, 0)`. -/
def ofUnix (seconds : Int) : Int := seconds * second

/-- `Time.Truncate(time.Second)`. -/
def truncateToSecond (instant : Int) : Int := instant - instant % second

/-- The greatest `time.Duration`. -/
def maxDuration : Int := 2 ^ 63 - 1

/-- `Time.Sub`: what is out of range becomes the nearest duration. -/
def timeSub (later earlier : Int) : Int :=
  max (-2 ^ 63) (min maxDuration (later - earlier))

/-- `Duration.Round`, of a duration that is not negative. -/
def durationRound (duration unit : Int) : Int :=
  let rest := duration % unit
  if rest + rest < unit then duration - rest
  else if duration + unit - rest ≤ maxDuration then duration + unit - rest
  else maxDuration

@[simp] theorem unix_ofUnix (seconds : Int) : unix (ofUnix seconds) = seconds := by
  simp [unix, ofUnix, second]

/-- A truncated instant is read back exactly from its seconds. -/
theorem ofUnix_unix_truncateToSecond (instant : Int) :
    ofUnix (unix (truncateToSecond instant)) = truncateToSecond instant := by
  simp only [ofUnix, unix, truncateToSecond, second]
  omega

/-- Adding whole seconds commutes with taking the seconds. -/
theorem unix_add_seconds (instant seconds : Int) :
    unix (instant + seconds * second) = unix instant + seconds := by
  simp only [unix, second]
  omega

theorem unix_mono {earlier later : Int} (le : earlier ≤ later) :
    unix earlier ≤ unix later := by
  simp only [unix, second]
  omega

end Go
end Haste
