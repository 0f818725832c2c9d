import Haste.Go.Float
import Mathlib.Algebra.Order.Ring.Cast

/-!
# Sizes and durations of the configuration

A size is a number with one of thirteen suffixes, or a bare integer; a duration
is a number of days or weeks, or whatever `time.ParseDuration` reads.  Two checks
are missing: a bare size may be negative, and a product is turned into an integer
whether or not it fits one.  The product is one of floating-point numbers, so it
may also be rounded to another integer.
-/

namespace Haste
namespace Config

open Go

/-- The errors of `ParseBytes` and `ParseDuration`. -/
inductive ParseError
  | emptySize
  | invalidSize (text : Bytes)
  | negativeSize (text : Bytes)
  | emptyDuration
  | invalidDuration (text : Bytes)
  /-- An error of `time.ParseDuration`. -/
  | library (message : Bytes)
  deriving DecidableEq, Repr

/-- The text of an error, given how `%q` writes a string. -/
def ParseError.message (quoted : Bytes → Bytes) : ParseError → Bytes
  | .emptySize => ascii "empty size"
  | .invalidSize text => ascii "invalid size " ++ quoted text
  | .negativeSize text =>
      ascii "invalid size " ++ quoted text ++ ascii ": must not be negative"
  | .emptyDuration => ascii "empty duration"
  | .invalidDuration text => ascii "invalid duration " ++ quoted text
  | .library message => message

/-- `byteUnits`. -/
def byteUnits : List (String × Nat) :=
  [("KIB", 2 ^ 10), ("MIB", 2 ^ 20), ("GIB", 2 ^ 30), ("TIB", 2 ^ 40),
    ("KB", 10 ^ 3), ("MB", 10 ^ 6), ("GB", 10 ^ 9), ("TB", 10 ^ 12),
    ("K", 2 ^ 10), ("M", 2 ^ 20), ("G", 2 ^ 30), ("T", 2 ^ 40),
    ("B", 1)]

/-- What stands before a suffix, without the space around it. -/
def digitsBefore (upper : Bytes) (suffix : String) : Bytes :=
  trimSpace (upper.take (upper.length - (ascii suffix).length))

/-- A number of units, as a number of bytes. -/
def scaleSize
    (conversion : Conversion)
    (text digits : Bytes)
    (scale : Nat) : Except ParseError Int :=
  match parseFloat digits with
  | none => .error (.invalidSize text)
  | some number =>
      if number.isNegative then .error (.negativeSize text)
      else .ok (conversion.toInt64 (number.scale scale)).toInt

/-- The loop of `ParseBytes` over the units, and the bare number after it. -/
def parseUnits
    (conversion : Conversion)
    (text : Bytes) : List (String × Nat) → Except ParseError Int
  | [] =>
      match parseInt text with
      | none => .error (.invalidSize text)
      | some number => .ok number
  | unit :: rest =>
      if hasSuffix (toUpper text) (ascii unit.1) = false then
        parseUnits conversion text rest
      else if digitsBefore (toUpper text) unit.1 = [] then
        parseUnits conversion text rest
      else scaleSize conversion text (digitsBefore (toUpper text) unit.1) unit.2

/-- `ParseBytes`. -/
def parseBytes (conversion : Conversion) (s : Bytes) : Except ParseError Int :=
  let text := trimSpace s
  if text = [] then .error .emptySize
  else parseUnits conversion text byteUnits

/-- The unit of a duration by its last byte, zero for none. -/
def durationUnit (last : Option UInt8) : Nat :=
  if last = some 0x64 ∨ last = some 0x44 then (24 * hour).toNat
  else if last = some 0x77 ∨ last = some 0x57 then (7 * 24 * hour).toNat
  else 0

/-- `ParseDuration`, given `time.ParseDuration`. -/
def parseDuration
    (conversion : Conversion)
    (library : Bytes → Except ParseError Int)
    (s : Bytes) : Except ParseError Int :=
  let text := trimSpace s
  if text = [] then .error .emptyDuration
  else
    let unit := durationUnit text.getLast?
    if unit = 0 then library text
    else match parseFloat text.dropLast with
      | none => .error (.invalidDuration text)
      | some number => .ok (conversion.toInt64 (number.scale unit)).toInt

/-! ## What is written -/

/-- The unit a size is written with: the first one that fits and leaves a
number. -/
def unitOf (text : Bytes) : Option (String × Nat) :=
  byteUnits.find? fun unit =>
    hasSuffix (toUpper text) (ascii unit.1) &&
      digitsBefore (toUpper text) unit.1 != []

/-- The number of a size and the scale of its unit, if it has one. -/
def writtenSize (s : Bytes) : Option (FloatValue × Option Nat) :=
  match unitOf (trimSpace s) with
  | none =>
      (parseInt (trimSpace s)).map fun (number : Int) => (.finite number, none)
  | some unit =>
      (parseFloat (digitsBefore (toUpper (trimSpace s)) unit.1)).map
        fun number => (number, some unit.2)

/-- The number of a duration in days or weeks, and the scale of its unit. -/
def writtenDuration (s : Bytes) : Option (FloatValue × Nat) :=
  let unit := durationUnit (trimSpace s).getLast?
  if unit = 0 then none
  else (parseFloat (trimSpace s).dropLast).map fun number => (number, unit)

/-- A size is read exactly or refused: a result is the number written times the
scale of its unit, truncated, and not negative. -/
def ReadsSize (conversion : Conversion) (s : Bytes) : Prop :=
  (∃ error, parseBytes conversion s = .error error) ∨
  ∃ bytes value scale, parseBytes conversion s = .ok bytes ∧
    writtenSize s = some (.finite value, scale) ∧
    0 ≤ bytes ∧ bytes < 2 ^ 63 ∧ bytes = truncate (value * (scale.getD 1 : Nat))

/-- A duration is read exactly or refused, or left to `time.ParseDuration`. -/
def ReadsDuration
    (conversion : Conversion)
    (library : Bytes → Except ParseError Int)
    (s : Bytes) : Prop :=
  (∃ error, parseDuration conversion library s = .error error) ∨
  (∃ duration value scale, parseDuration conversion library s = .ok duration ∧
    writtenDuration s = some (.finite value, scale) ∧
    duration = truncate (value * scale)) ∨
  (durationUnit (trimSpace s).getLast? = 0 ∧
    parseDuration conversion library s = library (trimSpace s))

/-- Rounding a product to a `float64` keeps its integer part. -/
def KeepsInteger (product : ℚ) : Prop :=
  truncate (float64 product) = truncate product

instance (product : ℚ) : Decidable (KeepsInteger product) :=
  inferInstanceAs (Decidable (_ = _))

/-- A bare size is not negative, and a size with a suffix is negative or the
product of a number with its scale keeps its integer part, which fits 64 bits. -/
def SizeFits (s : Bytes) : Prop :=
  match writtenSize s with
  | none => True
  | some (number, none) => number.isNegative = false
  | some (number, some scale) => number.isNegative = true ∨
      ∃ value, number = .finite value ∧ KeepsInteger (value * scale) ∧
        truncate (value * scale) < 2 ^ 63

/-- The product of the number of days or weeks with its scale keeps its integer
part, which fits 64 bits. -/
def DurationFits (s : Bytes) : Prop :=
  match writtenDuration s with
  | none => True
  | some (number, scale) =>
      ∃ value, number = .finite value ∧ KeepsInteger (value * scale) ∧
        -2 ^ 63 ≤ truncate (value * scale) ∧ truncate (value * scale) < 2 ^ 63

/-! ## Products -/

/-- The product is converted to its integer part. -/
def Converts (conversion : Conversion) (product : ℚ) : Prop :=
  (conversion.toInt64 (.nearest product)).toInt = truncate product

section

variable {conversion : Conversion} {product : ℚ}

theorem Converts.inRange (converts : Converts conversion product) :
    -2 ^ 63 ≤ truncate product ∧ truncate product < 2 ^ 63 := by
  unfold Converts at converts
  rw [← converts]
  exact ⟨Int64.le_toInt _, Int64.toInt_lt _⟩

/-- A product whose integer part fits 64 bits is no infinity. -/
theorem nearest_of_inRange
    (low : -2 ^ 63 ≤ truncate product)
    (high : truncate product < 2 ^ 63) :
    FloatValue.nearest product = .finite (float64 product) := by
  have close := abs_lt.mp (abs_sub_truncate_lt product)
  have low' : (-2 ^ 63 : ℚ) ≤ truncate product := by exact_mod_cast low
  have high' : (truncate product : ℚ) < 2 ^ 63 := by exact_mod_cast high
  have bound : (2 : ℚ) ^ 63 + 1 < floatBound := by decide +kernel
  exact if_pos (abs_lt.mpr ⟨by linarith [close.1], by linarith [close.2]⟩)

/-- On every machine the integer part is what rounding keeps. -/
theorem KeepsInteger.converts
    (keeps : KeepsInteger product)
    (low : -2 ^ 63 ≤ truncate product)
    (high : truncate product < 2 ^ 63) :
    Converts conversion product := by
  unfold Converts
  unfold KeepsInteger at keeps
  rw [nearest_of_inRange low high, conversion.inRange _ (keeps ▸ low) (keeps ▸ high),
    keeps]

/-- The least integer, which amd64 answers out of range, is the integer part of no
product that is out of range. -/
theorem converts_amd64_iff :
    Converts .amd64 product ↔ KeepsInteger product ∧
      -2 ^ 63 ≤ truncate product ∧ truncate product < 2 ^ 63 := by
  refine ⟨fun converts => ?_, fun ⟨keeps, low, high⟩ => keeps.converts low high⟩
  obtain ⟨low, high⟩ := converts.inRange
  refine ⟨?_, low, high⟩
  unfold Converts at converts
  rw [nearest_of_inRange low high] at converts
  by_cases inRange : -2 ^ 63 ≤ truncate (float64 product) ∧
      truncate (float64 product) < 2 ^ 63
  · rw [Conversion.amd64.inRange _ inRange.1 inRange.2] at converts
    exact converts
  · have least : truncate product = -2 ^ 63 := by
      rw [← converts]
      simp only [Conversion.amd64, if_neg inRange]
      rfl
    -- Then the product is the least integer or less than one below it.
    have close := abs_lt.mp (abs_sub_truncate_lt product)
    rw [least] at close
    push_cast at close
    have atLeast : 2 ^ 63 ≤ -product := by
      have floor := truncate_of_nonneg (show 0 ≤ -product by linarith [close.2])
      rw [truncate_neg, least] at floor
      have below := Int.floor_le (-product)
      rw [← floor] at below
      exact_mod_cast below
    have rounded := float64_of_close (by decide : 53 ≤ 63) atLeast
      (by linarith [close.1])
    refine absurd ?_ inRange
    rw [rounded]
    decide +kernel

end

/-! ## Sizes -/

section

variable {conversion : Conversion} {text : Bytes}

/-- The loop takes the first unit that fits. -/
theorem parseUnits_eq (units : List (String × Nat)) :
    parseUnits conversion text units =
      match units.find? (fun unit =>
        hasSuffix (toUpper text) (ascii unit.1) &&
          digitsBefore (toUpper text) unit.1 != []) with
      | none =>
          match parseInt text with
          | none => .error (.invalidSize text)
          | some number => .ok number
      | some unit =>
          scaleSize conversion text (digitsBefore (toUpper text) unit.1)
            unit.2 := by
  induction units with
  | nil => rfl
  | cons unit rest inductionHypothesis =>
      rw [parseUnits, List.find?_cons]
      by_cases fits : hasSuffix (toUpper text) (ascii unit.1) = true
      · by_cases bare : digitsBefore (toUpper text) unit.1 = []
        · simp [fits, bare, inductionHypothesis]
        · have some : (digitsBefore (toUpper text) unit.1 != []) = true :=
            bne_iff_ne.mpr bare
          simp [fits, bare, some]
      · simp [fits, inductionHypothesis]

variable {s : Bytes}

/-- A size without a unit is a bare integer. -/
theorem parseBytes_of_bare
    (present : trimSpace s ≠ [])
    (bare : unitOf (trimSpace s) = none) :
    parseBytes conversion s =
      match parseInt (trimSpace s) with
      | none => .error (.invalidSize (trimSpace s))
      | some number => .ok number := by
  unfold unitOf at bare
  simp only [parseBytes, if_neg present, parseUnits_eq, bare]

/-- A size with a unit is a number of that unit. -/
theorem parseBytes_of_unit
    (present : trimSpace s ≠ [])
    {unit : String × Nat}
    (suffixed : unitOf (trimSpace s) = some unit) :
    parseBytes conversion s =
      scaleSize conversion (trimSpace s)
        (digitsBefore (toUpper (trimSpace s)) unit.1) unit.2 := by
  unfold unitOf at suffixed
  simp only [parseBytes, if_neg present, parseUnits_eq, suffixed]

/-- What makes a number of units an exact size. -/
theorem scaleSize_reads_iff
    (conversion : Conversion)
    (text : Bytes)
    {digits : Bytes}
    {number : FloatValue}
    (written : parseFloat digits = some number)
    (scale : Nat) :
    ((∃ error, scaleSize conversion text digits scale = .error error) ∨
      ∃ bytes value, scaleSize conversion text digits scale = .ok bytes ∧
        number = .finite value ∧ 0 ≤ bytes ∧ bytes < 2 ^ 63 ∧
        bytes = truncate (value * scale)) ↔
      number.isNegative = true ∨
        ∃ value, number = .finite value ∧ Converts conversion (value * scale) := by
  unfold scaleSize
  rw [written]
  by_cases negative : number.isNegative = true
  · simp [negative]
  · rw [Bool.not_eq_true] at negative
    simp only [negative, Bool.false_eq_true, if_false, reduceCtorEq, exists_false,
      false_or, Except.ok.injEq]
    constructor
    · rintro ⟨bytes, value, rfl, rfl, -, -, exact⟩
      exact ⟨value, rfl, exact⟩
    · rintro ⟨value, rfl, converts⟩
      have nonnegative : 0 ≤ value := by
        simpa [FloatValue.isNegative] using negative
      have whole := truncate_nonneg
        (mul_nonneg nonnegative (Nat.cast_nonneg scale))
      refine ⟨_, value, rfl, rfl, ?_, Int64.toInt_lt _, converts⟩
      exact whole.trans_eq converts.symm

/-- A bare size is not negative, and the number before a suffix is negative or its
product is converted to its integer part. -/
def SizeConverts (conversion : Conversion) (s : Bytes) : Prop :=
  match writtenSize s with
  | none => True
  | some (number, none) => number.isNegative = false
  | some (number, some scale) => number.isNegative = true ∨
      ∃ value, number = .finite value ∧ Converts conversion (value * scale)

/-- A size is read exactly or refused if and only if it is converted so. -/
theorem readsSize_iff :
    ReadsSize conversion s ↔ SizeConverts conversion s := by
  unfold ReadsSize SizeConverts writtenSize
  by_cases present : trimSpace s = []
  · have nothing : unitOf ([] : Bytes) = none ∧ parseInt ([] : Bytes) = none := by
      decide +kernel
    simp [parseBytes, present, nothing]
  · cases suffixed : unitOf (trimSpace s) with
    | none =>
        rw [parseBytes_of_bare present suffixed]
        cases bare : parseInt (trimSpace s) with
        | none => simp
        | some number =>
            have inRange := (parseInt_range bare).2
            have exact : truncate ((number : ℚ) * ((none : Option Nat).getD 1 :)) =
                number := by
              simp
            simp only [Option.map_some, Option.some.injEq, Prod.mk.injEq,
              FloatValue.finite.injEq, Except.ok.injEq, reduceCtorEq,
              exists_false, false_or, FloatValue.isNegative,
              decide_eq_false_iff_not, not_lt]
            constructor
            · rintro ⟨_, _, _, rfl, -, nonnegative, -⟩
              exact_mod_cast nonnegative
            · intro nonnegative
              exact ⟨number, number, none, rfl, ⟨rfl, rfl⟩,
                by exact_mod_cast nonnegative, inRange, exact.symm⟩
    | some unit =>
        rw [parseBytes_of_unit present suffixed]
        dsimp only
        cases written : parseFloat
            (digitsBefore (toUpper (trimSpace s)) unit.1) with
        | none => simp [scaleSize, written]
        | some number =>
            refine Iff.trans (or_congr_right ?_)
              (scaleSize_reads_iff conversion (trimSpace s) written unit.2)
            constructor
            · rintro ⟨bytes, value, scale, read, same, inRange⟩
              cases same
              exact ⟨bytes, value, read, rfl, inRange⟩
            · rintro ⟨bytes, value, read, rfl, inRange⟩
              exact ⟨bytes, value, some unit.2, read, rfl, inRange⟩

/-! ## Durations -/

/-- The product of the number of days or weeks is converted to its integer
part. -/
def DurationConverts (conversion : Conversion) (s : Bytes) : Prop :=
  match writtenDuration s with
  | none => True
  | some (number, scale) =>
      ∃ value, number = .finite value ∧ Converts conversion (value * scale)

/-- A duration is read exactly, left to the library or refused if and only if it
is converted so. -/
theorem readsDuration_iff
    {library : Bytes → Except ParseError Int} :
    ReadsDuration conversion library s ↔ DurationConverts conversion s := by
  unfold ReadsDuration DurationConverts writtenDuration parseDuration
  by_cases present : trimSpace s = []
  · simp [present, durationUnit]
  · by_cases unsuffixed : durationUnit (trimSpace s).getLast? = 0
    · simp [present, unsuffixed]
    · simp only [if_neg present, if_neg unsuffixed]
      cases written : parseFloat (trimSpace s).dropLast with
      | none => simp
      | some number =>
          simp only [Option.map_some, Option.some.injEq, Prod.mk.injEq,
            Except.ok.injEq, reduceCtorEq, exists_false, false_or, unsuffixed,
            false_and, or_false]
          constructor
          · rintro ⟨duration, value, scale, rfl, ⟨rfl, rfl⟩, exact⟩
            exact ⟨value, rfl, exact⟩
          · rintro ⟨value, rfl, converts⟩
            exact ⟨_, value, _, rfl, ⟨rfl, rfl⟩, converts⟩

end

/-! ## What fits -/

section

variable {s : Bytes}

theorem SizeFits.converts
    (fits : SizeFits s)
    (conversion : Conversion) :
    SizeConverts conversion s := by
  unfold SizeFits at fits
  unfold SizeConverts
  cases written : writtenSize s with
  | none => trivial
  | some size =>
      obtain ⟨number, _ | scale⟩ := size
      · simpa only [written] using fits
      · simp only [written] at fits ⊢
        rcases fits with negative | ⟨value, rfl, keeps, high⟩
        · exact Or.inl negative
        · rcases lt_or_ge value 0 with negative | nonnegative
          · exact Or.inl (decide_eq_true negative)
          · have whole := truncate_nonneg
              (mul_nonneg nonnegative (Nat.cast_nonneg scale))
            exact Or.inr ⟨value, rfl, keeps.converts (by omega) high⟩

theorem sizeConverts_amd64_iff : SizeConverts .amd64 s ↔ SizeFits s := by
  refine ⟨fun converts => ?_, fun fits => fits.converts .amd64⟩
  unfold SizeConverts at converts
  unfold SizeFits
  cases written : writtenSize s with
  | none => trivial
  | some size =>
      obtain ⟨number, _ | scale⟩ := size
      · simpa only [written] using converts
      · simp only [written] at converts ⊢
        refine converts.imp_right ?_
        rintro ⟨value, isValue, converts⟩
        obtain ⟨keeps, -, high⟩ := converts_amd64_iff.mp converts
        exact ⟨value, isValue, keeps, high⟩

theorem DurationFits.converts
    (fits : DurationFits s)
    (conversion : Conversion) :
    DurationConverts conversion s := by
  unfold DurationFits at fits
  unfold DurationConverts
  cases written : writtenDuration s with
  | none => trivial
  | some duration =>
      simp only [written] at fits ⊢
      obtain ⟨value, isValue, keeps, low, high⟩ := fits
      exact ⟨value, isValue, keeps.converts low high⟩

theorem durationConverts_amd64_iff :
    DurationConverts .amd64 s ↔ DurationFits s := by
  refine ⟨fun converts => ?_, fun fits => fits.converts .amd64⟩
  unfold DurationConverts at converts
  unfold DurationFits
  cases written : writtenDuration s with
  | none => trivial
  | some duration =>
      simp only [written] at converts ⊢
      obtain ⟨value, isValue, converts⟩ := converts
      exact ⟨value, isValue, converts_amd64_iff.mp converts⟩

end

/-- **Sizes and durations.**  For every text, a size is read exactly or refused if
and only if a bare one is not negative and one with a unit is negative or its
product keeps its integer part and fits 64 bits; and a duration if and only if, in
days or weeks, its product does.  Where it does, every machine reads it so; where
it does not, amd64 is one that does not. -/
theorem parses_iff (library : Bytes → Except ParseError Int) (s : Bytes) :
    (ReadsSize .amd64 s ↔ SizeFits s) ∧
      (ReadsDuration .amd64 library s ↔ DurationFits s) ∧
      ∀ conversion, (SizeFits s → ReadsSize conversion s) ∧
        (DurationFits s → ReadsDuration conversion library s) := by
  refine ⟨readsSize_iff.trans sizeConverts_amd64_iff,
    readsDuration_iff.trans durationConverts_amd64_iff, fun conversion => ⟨?_, ?_⟩⟩
  · exact fun fits => readsSize_iff.mpr (fits.converts conversion)
  · exact fun fits => readsDuration_iff.mpr (fits.converts conversion)

/-- A bare size of minus one byte is read as such; a size of 2 ^ 63 bytes and one
that is no number become the least integer, and so does an infinite duration; and
a size of more than 53 binary digits becomes another one. -/
theorem parses_out_of_range :
    (parseBytes .amd64 (ascii "-1") = .ok (-1) ∧
      ¬ReadsSize .amd64 (ascii "-1")) ∧
    (parseBytes .amd64 (ascii "9223372036854775808B") = .ok (-2 ^ 63) ∧
      ¬ReadsSize .amd64 (ascii "9223372036854775808B")) ∧
    (parseBytes .amd64 (ascii "NaN KiB") = .ok (-2 ^ 63) ∧
      ¬ReadsSize .amd64 (ascii "NaN KiB")) ∧
    (parseBytes .amd64 (ascii "9007199254740991KB") = .ok 9007199254740990976 ∧
      ¬ReadsSize .amd64 (ascii "9007199254740991KB")) ∧
    (∀ library, parseDuration .amd64 library (ascii "infd") = .ok (-2 ^ 63) ∧
      ¬ReadsDuration .amd64 library (ascii "infd")) := by
  have bare : writtenSize (ascii "-1") = some (.finite (-1), none) := by
    decide +kernel
  have large : writtenSize (ascii "9223372036854775808B") =
      some (.finite (2 ^ 63), some 1) := by
    decide +kernel
  have noNumber : writtenSize (ascii "NaN KiB") = some (.nan, some 1024) := by
    decide +kernel
  have long : writtenSize (ascii "9007199254740991KB") =
      some (.finite 9007199254740991, some 1000) := by
    decide +kernel
  have endless : writtenDuration (ascii "infd") =
      some (.infinite false, 86400000000000) := by
    decide +kernel
  refine ⟨⟨by decide +kernel, ?_⟩, ⟨by decide +kernel, ?_⟩,
    ⟨by decide +kernel, ?_⟩, ⟨by decide +kernel, ?_⟩, fun library => ⟨rfl, ?_⟩⟩
  · rw [readsSize_iff, sizeConverts_amd64_iff, SizeFits, bare]
    decide
  · rw [readsSize_iff, sizeConverts_amd64_iff, SizeFits, large]
    simp only [FloatValue.isNegative, FloatValue.finite.injEq, exists_eq_left']
    decide +kernel
  · rw [readsSize_iff, sizeConverts_amd64_iff, SizeFits, noNumber]
    simp [FloatValue.isNegative]
  · rw [readsSize_iff, sizeConverts_amd64_iff, SizeFits, long]
    simp only [FloatValue.isNegative, FloatValue.finite.injEq, exists_eq_left']
    decide +kernel
  · rw [readsDuration_iff, durationConverts_amd64_iff, DurationFits, endless]
    simp

end Config
end Haste
