import Haste.Foundation.Tiers
import Haste.Id.Encoding
import Haste.Id.Permutation

/-!
# The code space

A sequence number is located in the lengths from the minimum up, and the code
is the permuted offset written with that length.  Both steps are bijections,
so the sequence numbers up to the capacity and the strings of the admitted
lengths correspond one to one.  The lengths from a larger minimum are the last
of those from a smaller one, which relates the codes of two minimum lengths.
-/

namespace Haste
namespace Id

open Go
open Foundation

/-! ## The places of a code length -/

/-- Number of codes of one length. -/
abbrev codesOf (length : Nat) : Nat := 62 ^ length

/-- Number of codes from a minimum length up. -/
def codeCount (minLen : Nat) : Nat :=
  Tiers.total codesOf (lengthsFrom minLen)

/-- All codes are numbered by positive SQLite integers. -/
theorem codeCount_lt
    {minLen : Nat}
    (positive : 1 ≤ minLen)
    (bounded : minLen ≤ maxLen) :
    codeCount minLen + 1 < 2 ^ 63 := by
  unfold maxLen at bounded
  interval_cases minLen <;> decide

theorem mem_lengthsFrom
    (minLen length : Nat) :
    length ∈ lengthsFrom minLen ↔ minLen ≤ length ∧ length ≤ maxLen := by
  rw [lengthsFrom, List.mem_range'_1]
  omega

theorem lengthsFrom_pairwise (minLen : Nat) :
    (lengthsFrom minLen).Pairwise (· < ·) :=
  List.pairwise_lt_range'

theorem lengthsFrom_nodup (minLen : Nat) : (lengthsFrom minLen).Nodup :=
  List.nodup_range'

/-- The lengths from a larger minimum are a tail of those from a smaller. -/
theorem lengthsFrom_append
    {minLen larger : Nat}
    (le : minLen ≤ larger)
    (bounded : larger ≤ maxLen + 1) :
    lengthsFrom minLen =
      List.range' minLen (larger - minLen) ++ lengthsFrom larger := by
  have start : larger = minLen + 1 * (larger - minLen) := by omega
  have count : maxLen + 1 - minLen =
      (larger - minLen) + (maxLen + 1 - larger) := by omega
  unfold lengthsFrom
  rw [count, ← List.range'_append, ← start]

namespace Generator

variable (generator : Generator)

/-- The code of an offset inside one length. -/
def placeCode (length offset : Nat) : Option Bytes :=
  (generator.permute (UInt64.ofNat offset) (tiers length) length).map
    fun value => encode value length

/-- The code of a place depends on the key alone. -/
theorem placeCode_congr
    {left right : Generator}
    (sameKey : left.mac = right.mac) :
    left.placeCode = right.placeCode := by
  funext length offset
  unfold placeCode permute feistel round
  rw [sameKey]

variable {length offset : Nat}

theorem offset_lt_size
    (positive : 1 ≤ length)
    (bounded : length ≤ maxLen)
    (bound : offset < codesOf length) :
    (UInt64.ofNat offset).toNat = offset ∧
      UInt64.ofNat offset < (tiers length).size := by
  have sound := tiers_sound positive bounded
  have size := sound.size
  have fitsWord : offset < UInt64.size :=
    bound.trans (by rw [codesOf, ← size]; exact (tiers length).size.toNat_lt)
  have value := UInt64.toNat_ofNat_of_lt' fitsWord
  exact ⟨value, by rw [UInt64.lt_iff_toNat_lt, value, size]; exact bound⟩

theorem exists_placeCode
    (positive : 1 ≤ length)
    (bounded : length ≤ maxLen)
    (bound : offset < codesOf length) :
    ∃ issued, generator.placeCode length offset = some issued := by
  obtain ⟨value, ended⟩ := Option.isSome_iff_exists.mp
    (generator.permute_isSome (tiers_sound positive bounded)
      (offset_lt_size positive bounded bound).2)
  exact ⟨encode value length, by rw [placeCode, ended]; rfl⟩

/-- The code of a place has the length of the place and is base 62. -/
theorem placeCode_shape
    (positive : 1 ≤ length)
    (bounded : length ≤ maxLen)
    {issued : Bytes}
    (placed : generator.placeCode length offset = some issued) :
    issued.length = length ∧ IsBase62 issued := by
  obtain ⟨value, ended, rfl⟩ := Option.map_eq_some_iff.mp placed
  have inTier := generator.permute_lt ended
  rw [UInt64.lt_iff_toNat_lt, (tiers_sound positive bounded).size] at inTier
  exact ⟨encode_length inTier, encode_isBase62 inTier⟩

theorem placeCode_injective
    (positive : 1 ≤ length)
    (bounded : length ≤ maxLen)
    {offset' : Nat}
    (bound : offset < codesOf length)
    (bound' : offset' < codesOf length)
    {issued : Bytes}
    (placed : generator.placeCode length offset = some issued)
    (placed' : generator.placeCode length offset' = some issued) :
    offset = offset' := by
  have sound := tiers_sound positive bounded
  obtain ⟨number, inTier⟩ := offset_lt_size positive bounded bound
  obtain ⟨number', inTier'⟩ := offset_lt_size positive bounded bound'
  obtain ⟨value, ended, equal⟩ := Option.map_eq_some_iff.mp placed
  obtain ⟨value', ended', equal'⟩ := Option.map_eq_some_iff.mp placed'
  have valueBound := generator.permute_lt ended
  have valueBound' := generator.permute_lt ended'
  rw [UInt64.lt_iff_toNat_lt, sound.size] at valueBound valueBound'
  have sameValue := encode_injective valueBound valueBound'
    (equal.trans equal'.symm)
  subst sameValue
  have sameOffset := generator.permute_injective sound inTier inTier' ended ended'
  rw [← number, ← number', sameOffset]

/-- Every base 62 string of an admitted length is the code of a place. -/
theorem placeCode_surjective
    {code : Bytes}
    (positive : 1 ≤ code.length)
    (bounded : code.length ≤ maxLen)
    (base62 : IsBase62 code) :
    ∃ offset < codesOf code.length,
      generator.placeCode code.length offset = some code := by
  have sound := tiers_sound positive bounded
  obtain ⟨value, fits, written⟩ := exists_encode bounded base62
  obtain ⟨x, inTier, ended⟩ := generator.permute_surjective sound
    (show value < (tiers code.length).size by
      rwa [UInt64.lt_iff_toNat_lt, sound.size])
  refine ⟨x.toNat, ?_, ?_⟩
  · rwa [UInt64.lt_iff_toNat_lt, sound.size] at inTier
  · rw [placeCode, UInt64.ofNat_toNat, ended, Option.map_some, written]

/-! ## Sequence numbers -/

/-- The loop of `Code` issues the code of the located place. -/
theorem codeAmong_eq
    {lengths : List Nat}
    (admitted : ∀ length ∈ lengths, 1 ≤ length ∧ length ≤ maxLen)
    (index : UInt64) :
    generator.codeAmong lengths index =
      match Tiers.locate codesOf lengths index.toNat with
      | some place =>
          match generator.placeCode place.1 place.2 with
          | some issued => .ok issued
          | none => .error .diverged
      | none => .error .exhausted := by
  induction lengths generalizing index with
  | nil => rfl
  | cons length rest inductionHypothesis =>
      obtain ⟨⟨positive, bounded⟩, restAdmitted⟩ := List.forall_mem_cons.mp admitted
      have size := (tiers_sound positive bounded).size
      unfold codeAmong
      by_cases inTier : index < (tiers length).size
      · have inFirst : index.toNat < codesOf length := by
          rwa [UInt64.lt_iff_toNat_lt, size] at inTier
        rw [Tiers.locate_cons_of_lt inFirst]
        simp only [if_pos inTier, placeCode, UInt64.ofNat_toNat]
        cases generator.permute index (tiers length) length <;> rfl
      · have beyond : (tiers length).size ≤ index := UInt64.not_lt.mp inTier
        have difference : (index - (tiers length).size).toNat =
            index.toNat - codesOf length := by
          rw [UInt64.toNat_sub_of_le _ _ beyond, size]
        have beyondFirst : codesOf length ≤ index.toNat := by
          rwa [UInt64.le_iff_toNat_le, size] at beyond
        simp only [if_neg inTier]
        rw [inductionHypothesis restAdmitted, difference,
          Tiers.locate_cons_of_le beyondFirst]

theorem lengths_admitted :
    ∀ length ∈ lengthsFrom generator.minLen, 1 ≤ length ∧ length ≤ maxLen := by
  intro length present
  obtain ⟨le, bounded⟩ := (mem_lengthsFrom _ _).mp present
  exact ⟨generator.minLen_pos.trans le, bounded⟩

theorem toNat_sub_one
    {seq : UInt64}
    (nonzero : seq ≠ 0) :
    (seq - 1).toNat = seq.toNat - 1 := by
  have positive : (1 : UInt64) ≤ seq := by
    rw [UInt64.le_iff_toNat_le, UInt64.toNat_one]
    have : seq.toNat ≠ 0 := fun zero => nonzero (UInt64.toNat_inj.mp zero)
    omega
  rw [UInt64.toNat_sub_of_le _ _ positive, UInt64.toNat_one]

/-- A sequence number has a code exactly when it is located at a place, and
the code is that of the place. -/
theorem code_eq_ok_iff
    (seq : UInt64)
    (issued : Bytes) :
    generator.code seq = .ok issued ↔
      seq ≠ 0 ∧ ∃ length offset,
        Tiers.locate codesOf (lengthsFrom generator.minLen) (seq.toNat - 1) =
          some (length, offset) ∧
        generator.placeCode length offset = some issued := by
  unfold code
  by_cases zero : seq = 0
  · simp [zero]
  · rw [if_neg zero, generator.codeAmong_eq generator.lengths_admitted,
      toNat_sub_one zero]
    cases located : Tiers.locate codesOf (lengthsFrom generator.minLen)
        (seq.toNat - 1) with
    | none => simp
    | some place =>
        obtain ⟨length, offset⟩ := place
        simp only [Option.some.injEq, Prod.mk.injEq]
        cases placed : generator.placeCode length offset with
        | none => simp [zero, placed]
        | some found => simp [zero, placed]

/-- A number located at a place has its code, of the length of the place. -/
theorem exists_code_of_locate
    {seq : UInt64}
    {length offset : Nat}
    (nonzero : seq ≠ 0)
    (located : Tiers.locate codesOf (lengthsFrom generator.minLen)
      (seq.toNat - 1) = some (length, offset)) :
    ∃ issued, generator.code seq = .ok issued ∧
      generator.placeCode length offset = some issued ∧
      issued.length = length ∧ IsBase62 issued := by
  obtain ⟨member, bound⟩ := Tiers.locate_mem located
  obtain ⟨admitted, bounded⟩ := generator.lengths_admitted length member
  obtain ⟨issued, placed⟩ := generator.exists_placeCode admitted bounded bound
  exact ⟨issued, (generator.code_eq_ok_iff _ _).mpr
    ⟨nonzero, length, offset, located, placed⟩, placed,
    generator.placeCode_shape admitted bounded placed⟩

/-- The numbers from 1 to the number of places have a code. -/
theorem exists_code_iff (seq : UInt64) :
    (∃ issued, generator.code seq = .ok issued) ↔
      seq ≠ 0 ∧ seq.toNat ≤ codeCount generator.minLen := by
  simp only [code_eq_ok_iff, codeCount]
  constructor
  · rintro ⟨issued, nonzero, length, offset, located, placed⟩
    refine ⟨nonzero, ?_⟩
    have within := Tiers.locate_isSome_iff.mp
      (Option.isSome_iff_exists.mpr ⟨_, located⟩)
    omega
  · rintro ⟨nonzero, within⟩
    have positive : seq.toNat ≠ 0 := fun zero =>
      nonzero (UInt64.toNat_inj.mp zero)
    obtain ⟨⟨length, offset⟩, located⟩ := Option.isSome_iff_exists.mp
      (Tiers.locate_isSome_iff.mpr (show seq.toNat - 1 <
        Tiers.total codesOf (lengthsFrom generator.minLen) by omega))
    obtain ⟨issued, _, placed, _⟩ :=
      generator.exists_code_of_locate nonzero located
    exact ⟨issued, nonzero, length, offset, located, placed⟩

/-- Distinct sequence numbers have distinct codes. -/
theorem code_injective
    {left right : UInt64}
    {issued : Bytes}
    (leftIssued : generator.code left = .ok issued)
    (rightIssued : generator.code right = .ok issued) :
    left = right := by
  obtain ⟨leftNonzero, length, offset, leftLocated, leftPlaced⟩ :=
    (generator.code_eq_ok_iff _ _).mp leftIssued
  obtain ⟨rightNonzero, length', offset', rightLocated, rightPlaced⟩ :=
    (generator.code_eq_ok_iff _ _).mp rightIssued
  obtain ⟨leftMember, leftBound⟩ := Tiers.locate_mem leftLocated
  obtain ⟨rightMember, rightBound⟩ := Tiers.locate_mem rightLocated
  obtain ⟨positive, bounded⟩ := generator.lengths_admitted _ leftMember
  obtain ⟨positive', bounded'⟩ := generator.lengths_admitted _ rightMember
  have sameLength : length = length' := by
    rw [← (generator.placeCode_shape positive bounded leftPlaced).1,
      (generator.placeCode_shape positive' bounded' rightPlaced).1]
  subst sameLength
  have sameOffset := generator.placeCode_injective positive bounded
    leftBound rightBound leftPlaced rightPlaced
  subst sameOffset
  have sameIndex := Tiers.locate_injective (lengthsFrom_nodup _)
    leftLocated rightLocated
  have leftPositive : left.toNat ≠ 0 := fun zero =>
    leftNonzero (UInt64.toNat_inj.mp zero)
  have rightPositive : right.toNat ≠ 0 := fun zero =>
    rightNonzero (UInt64.toNat_inj.mp zero)
  exact UInt64.toNat_inj.mp (by omega)

/-- An issued code is a base 62 string of an admitted length. -/
theorem code_shape
    {seq : UInt64}
    {issued : Bytes}
    (issuedCode : generator.code seq = .ok issued) :
    generator.minLen ≤ issued.length ∧ issued.length ≤ maxLen ∧
      IsBase62 issued := by
  obtain ⟨_, length, offset, located, placed⟩ :=
    (generator.code_eq_ok_iff _ _).mp issuedCode
  have member := (Tiers.locate_mem located).1
  obtain ⟨positive, bounded⟩ := generator.lengths_admitted _ member
  obtain ⟨sameLength, base62⟩ := generator.placeCode_shape positive bounded placed
  rw [sameLength]
  exact ⟨((mem_lengthsFrom _ _).mp member).1, bounded, base62⟩

/-- Every base 62 string of an admitted length is issued. -/
theorem exists_seq_of_base62
    {code : Bytes}
    (long : generator.minLen ≤ code.length)
    (short : code.length ≤ maxLen)
    (base62 : IsBase62 code) :
    ∃ seq, generator.code seq = .ok code := by
  have positive := generator.minLen_pos.trans long
  obtain ⟨offset, bound, placed⟩ :=
    generator.placeCode_surjective positive short base62
  obtain ⟨index, within, located⟩ := Tiers.exists_locate
    ((mem_lengthsFrom generator.minLen _).mpr ⟨long, short⟩) bound
  have fitsWord : index + 1 < UInt64.size := by
    have few := codeCount_lt generator.minLen_pos generator.minLen_le
    unfold codeCount at few
    unfold UInt64.size
    omega
  have value := UInt64.toNat_ofNat_of_lt' fitsWord
  refine ⟨UInt64.ofNat (index + 1), (generator.code_eq_ok_iff _ _).mpr
    ⟨?_, _, _, ?_, placed⟩⟩
  · intro zero
    have := congrArg UInt64.toNat zero
    rw [value, UInt64.toNat_zero] at this
    omega
  · rw [value, Nat.add_sub_cancel, located]

/-- Code lengths never decrease as the sequence number grows. -/
theorem code_length_mono
    {left right : UInt64}
    {leftCode rightCode : Bytes}
    (le : left ≤ right)
    (leftIssued : generator.code left = .ok leftCode)
    (rightIssued : generator.code right = .ok rightCode) :
    leftCode.length ≤ rightCode.length := by
  obtain ⟨_, length, offset, leftLocated, leftPlaced⟩ :=
    (generator.code_eq_ok_iff _ _).mp leftIssued
  obtain ⟨_, length', offset', rightLocated, rightPlaced⟩ :=
    (generator.code_eq_ok_iff _ _).mp rightIssued
  obtain ⟨positive, bounded⟩ :=
    generator.lengths_admitted _ (Tiers.locate_mem leftLocated).1
  obtain ⟨positive', bounded'⟩ :=
    generator.lengths_admitted _ (Tiers.locate_mem rightLocated).1
  rw [(generator.placeCode_shape positive bounded leftPlaced).1,
    (generator.placeCode_shape positive' bounded' rightPlaced).1]
  rw [UInt64.le_iff_toNat_le] at le
  rcases Tiers.locate_mono (lengthsFrom_pairwise _) leftLocated rightLocated
      (by omega) with same | before
  · exact same.le
  · exact before.le

/-- A code that two generators with one key both issue has the smaller
sequence number under the larger minimum length. -/
theorem code_seq_le_of_minLen_le
    {larger : Generator}
    (sameKey : generator.mac = larger.mac)
    (le : generator.minLen ≤ larger.minLen)
    {seq seq' : UInt64}
    {issued : Bytes}
    (issuedHere : generator.code seq = .ok issued)
    (issuedThere : larger.code seq' = .ok issued) :
    seq' ≤ seq := by
  obtain ⟨nonzero, length, offset, located, placed⟩ :=
    (generator.code_eq_ok_iff _ _).mp issuedHere
  obtain ⟨nonzero', length', offset', located', placed'⟩ :=
    (larger.code_eq_ok_iff _ _).mp issuedThere
  obtain ⟨member, bound⟩ := Tiers.locate_mem located
  obtain ⟨member', bound'⟩ := Tiers.locate_mem located'
  obtain ⟨positive, bounded⟩ := generator.lengths_admitted _ member
  obtain ⟨positive', bounded'⟩ := larger.lengths_admitted _ member'
  rw [placeCode_congr sameKey.symm] at placed'
  have sameLength : length = length' := by
    rw [← (generator.placeCode_shape positive bounded placed).1,
      (generator.placeCode_shape positive' bounded' placed').1]
  subst sameLength
  have sameOffset := generator.placeCode_injective positive bounded
    bound bound' placed placed'
  subst sameOffset
  have split := lengthsFrom_append le
    (larger.minLen_le.trans (Nat.le_succ maxLen))
  have distinct := lengthsFrom_nodup generator.minLen
  rw [split] at located distinct
  have indices := Tiers.locate_drop_le distinct located located'
  have positiveSeq : seq.toNat ≠ 0 := fun zero =>
    nonzero (UInt64.toNat_inj.mp zero)
  have positiveSeq' : seq'.toNat ≠ 0 := fun zero =>
    nonzero' (UInt64.toNat_inj.mp zero)
  rw [UInt64.le_iff_toNat_le]
  omega

/-- A positive number either has a code or lies beyond the code space. -/
theorem code_ok_or_exhausted
    {seq : UInt64}
    (nonzero : seq ≠ 0) :
    (∃ issued, generator.code seq = .ok issued) ∨
      generator.code seq = .error .exhausted := by
  unfold code
  rw [if_neg nonzero, generator.codeAmong_eq generator.lengths_admitted]
  cases located : Tiers.locate codesOf (lengthsFrom generator.minLen)
      (seq - 1).toNat with
  | none => exact Or.inr rfl
  | some place =>
      obtain ⟨member, bound⟩ := Tiers.locate_mem located
      obtain ⟨positive, bounded⟩ := generator.lengths_admitted _ member
      obtain ⟨issued, placed⟩ :=
        generator.exists_placeCode positive bounded bound
      exact Or.inl ⟨issued, by simp only [placed]⟩

end Generator

theorem valid_iff (code : Bytes) :
    valid code = true ↔
      1 ≤ code.length ∧ code.length ≤ maxLen ∧ IsBase62 code := by
  simp only [valid, bne_iff_ne, ne_eq, Bool.and_eq_true, decide_eq_true_eq,
    List.all_eq_true, List.contains_iff_mem, IsBase62, and_assoc,
    Nat.one_le_iff_ne_zero]

/-- `Capacity` adds up the code lengths from the minimum. -/
theorem exists_capacity
    {minLen : Nat}
    (positive : 1 ≤ minLen)
    (bounded : minLen ≤ maxLen) :
    ∃ total, capacity minLen = .ok total ∧
      total.toNat = codeCount minLen := by
  unfold maxLen at bounded
  interval_cases minLen <;> exact ⟨_, rfl, by decide⟩

/-- The strings a generator with this minimum length may issue. -/
def codeSpace (minLen : Nat) : Set Bytes :=
  {code | minLen ≤ code.length ∧ code.length ≤ maxLen ∧ IsBase62 code}

/-- The sequence numbers with a code are those from 1 to the capacity. -/
theorem exists_code_iff_le_capacity
    (generator : Generator)
    {total : UInt64}
    (counted : total.toNat = codeCount generator.minLen)
    (seq : UInt64) :
    (∃ issued, generator.code seq = .ok issued) ↔ 1 ≤ seq ∧ seq ≤ total := by
  rw [generator.exists_code_iff, ← counted, UInt64.le_iff_toNat_le,
    UInt64.le_iff_toNat_le, UInt64.toNat_one, Nat.one_le_iff_ne_zero, ne_eq,
    ne_eq, ← UInt64.toNat_inj, UInt64.toNat_zero]

/-- `Code` maps the sequence numbers up to the capacity one to one onto the
strings of the admitted lengths. -/
theorem code_bijOn
    (generator : Generator)
    {total : UInt64}
    (counted : total.toNat = codeCount generator.minLen) :
    Set.BijOn generator.code {seq | 1 ≤ seq ∧ seq ≤ total}
      (Except.ok '' codeSpace generator.minLen) := by
  refine ⟨?_, ?_, ?_⟩
  · intro seq numbered
    obtain ⟨issued, issuedCode⟩ :=
      (exists_code_iff_le_capacity generator counted seq).mpr numbered
    exact ⟨issued, generator.code_shape issuedCode, issuedCode.symm⟩
  · intro left leftNumbered right _ equal
    obtain ⟨issued, issuedCode⟩ :=
      (exists_code_iff_le_capacity generator counted left).mpr leftNumbered
    exact generator.code_injective issuedCode (equal ▸ issuedCode)
  · rintro _ ⟨code, ⟨long, short, base62⟩, rfl⟩
    obtain ⟨seq, issuedCode⟩ := generator.exists_seq_of_base62 long short base62
    exact ⟨seq, (exists_code_iff_le_capacity generator counted seq).mp
      ⟨code, issuedCode⟩, issuedCode⟩

/-- A longer code is issued only after every code of the lengths up to the
previous one. -/
theorem exists_earlier_of_length_lt
    (generator : Generator)
    {seq : UInt64}
    {issued next : Bytes}
    (nextCode : generator.code (seq + 1) = .ok next)
    (longer : issued.length < next.length)
    {code : Bytes}
    (inSpace : code ∈ codeSpace generator.minLen)
    (short : code.length ≤ issued.length) :
    ∃ used ≤ seq, generator.code used = .ok code := by
  obtain ⟨long, bounded, base62⟩ := inSpace
  obtain ⟨used, usedCode⟩ := generator.exists_seq_of_base62 long bounded base62
  refine ⟨used, ?_, usedCode⟩
  by_contra later
  have beyond : seq + 1 ≤ used := by
    rw [UInt64.not_le, UInt64.lt_iff_toNat_lt] at later
    rw [UInt64.le_iff_toNat_le, UInt64.toNat_add, UInt64.toNat_one]
    exact (Nat.mod_le _ _).trans later
  have := generator.code_length_mono beyond nextCode usedCode
  omega

/-- `Code` on the sequence numbers up to the capacity: a bijection onto the
admitted strings, into the valid codes, in order of length, with an error on
every other number. -/
theorem code_spec (generator : Generator) :
    ∃ total, capacity generator.minLen = .ok total ∧
      Set.BijOn generator.code {seq | 1 ≤ seq ∧ seq ≤ total}
        (Except.ok '' codeSpace generator.minLen) ∧
      (∀ seq issued, generator.code seq = .ok issued → valid issued = true) ∧
      (∀ left right leftCode rightCode, left ≤ right →
        generator.code left = .ok leftCode →
        generator.code right = .ok rightCode →
        leftCode.length ≤ rightCode.length) ∧
      (∀ seq issued next, generator.code seq = .ok issued →
        generator.code (seq + 1) = .ok next → issued.length < next.length →
        ∀ code ∈ codeSpace generator.minLen, code.length ≤ issued.length →
          ∃ used ≤ seq, generator.code used = .ok code) ∧
      (∀ seq, (∃ error, generator.code seq = .error error) ↔
        seq = 0 ∨ total < seq) := by
  obtain ⟨total, counted, sum⟩ :=
    exists_capacity generator.minLen_pos generator.minLen_le
  refine ⟨total, counted, code_bijOn generator sum, ?_, ?_, ?_, ?_⟩
  · intro seq issued issuedCode
    obtain ⟨long, short, base62⟩ := generator.code_shape issuedCode
    exact (valid_iff issued).mpr ⟨generator.minLen_pos.trans long, short, base62⟩
  · intro left right leftCode rightCode le leftIssued rightIssued
    exact generator.code_length_mono le leftIssued rightIssued
  · intro seq issued next _ nextCode longer code inSpace short
    exact exists_earlier_of_length_lt generator nextCode longer inSpace short
  · intro seq
    have numbered := exists_code_iff_le_capacity generator sum seq
    have split : (∃ error, generator.code seq = .error error) ↔
        ¬∃ issued, generator.code seq = .ok issued := by
      cases generator.code seq <;> simp
    rw [split, numbered, not_and_or, UInt64.not_le, UInt64.not_le]
    apply or_congr_left
    rw [UInt64.lt_iff_toNat_lt, UInt64.toNat_one, Nat.lt_one_iff,
      ← UInt64.toNat_inj, UInt64.toNat_zero]

end Id
end Haste
