import Haste.Id.Slug
import Mathlib.Tactic.IntervalCases
import Mathlib.Tactic.NormNum

/-!
# The keyed permutation of one code length

For every keyed hash, `feistel` permutes the block of numbers that fit in two
halves, and walking its cycles permutes the numbers below the tier size.  No
shift or mask loses a bit, because every half stays below its width.
-/

namespace Haste
namespace Id

/-- What `init` establishes for the tier of one code length. -/
structure Tier.Sound (tier : Tier) (length : Nat) : Prop where
  size : tier.size.toNat = 62 ^ length
  half : tier.half.toNat ≤ 30
  mask : tier.mask.toNat = 2 ^ tier.half.toNat - 1
  covers : 62 ^ length ≤ 2 ^ (2 * tier.half.toNat)

/-- The table is sound at every length a code may have. -/
theorem tiers_sound
    {length : Nat}
    (positive : 1 ≤ length)
    (bounded : length ≤ maxLen) :
    (tiers length).Sound length := by
  unfold maxLen at bounded
  interval_cases length <;> exact ⟨by decide, by decide, by decide, by decide⟩

namespace Tier

/-- The numbers that two halves can hold. -/
def block (tier : Tier) : Finset UInt64 :=
  (Finset.range (2 ^ (2 * tier.half.toNat))).image UInt64.ofNat

variable {tier : Tier} {length : Nat}

theorem Sound.block_lt_wordSize (sound : tier.Sound length) :
    2 ^ (2 * tier.half.toNat) < UInt64.size := by
  calc
    2 ^ (2 * tier.half.toNat) ≤ 2 ^ 60 :=
      Nat.pow_le_pow_right (by decide) (by have := sound.half; omega)
    _ < UInt64.size := by decide

theorem Sound.mem_block
    (sound : tier.Sound length)
    (x : UInt64) :
    x ∈ tier.block ↔ x.toNat < 2 ^ (2 * tier.half.toNat) := by
  simp only [block, Finset.mem_image, Finset.mem_range]
  constructor
  · rintro ⟨number, bound, rfl⟩
    rwa [UInt64.toNat_ofNat_of_lt' (bound.trans sound.block_lt_wordSize)]
  · intro bound
    exact ⟨x.toNat, bound, UInt64.ofNat_toNat⟩

theorem Sound.mem_block_of_lt
    (sound : tier.Sound length)
    {x : UInt64}
    (inTier : x < tier.size) :
    x ∈ tier.block := by
  rw [sound.mem_block]
  rw [UInt64.lt_iff_toNat_lt, sound.size] at inTier
  exact inTier.trans_le sound.covers

/-- The block holds `2 ^ (2 * half) - size` numbers outside the tier. -/
theorem Sound.outside_card (sound : tier.Sound length) :
    (tier.block.filter fun x => ¬x < tier.size).card ≤
      2 ^ (2 * tier.half.toNat) - tier.size.toNat := by
  have contained : (tier.block.filter fun x => ¬x < tier.size) ⊆
      (Finset.Ico tier.size.toNat (2 ^ (2 * tier.half.toNat))).image
        UInt64.ofNat := by
    intro x present
    obtain ⟨inBlock, outside⟩ := Finset.mem_filter.mp present
    rw [sound.mem_block] at inBlock
    rw [UInt64.lt_iff_toNat_lt] at outside
    refine Finset.mem_image.mpr ⟨x.toNat, ?_, UInt64.ofNat_toNat⟩
    exact Finset.mem_Ico.mpr ⟨Nat.not_lt.mp outside, inBlock⟩
  calc
    _ ≤ _ := Finset.card_le_card contained
    _ ≤ (Finset.Ico tier.size.toNat (2 ^ (2 * tier.half.toNat))).card :=
      Finset.card_image_le
    _ = 2 ^ (2 * tier.half.toNat) - tier.size.toNat := Nat.card_Ico _ _

/-- A half fits in its width. -/
def IsHalf (tier : Tier) (value : UInt64) : Prop :=
  value.toNat < 2 ^ tier.half.toNat

theorem Sound.toNat_and_mask
    (sound : tier.Sound length)
    (value : UInt64) :
    (value &&& tier.mask).toNat = value.toNat % 2 ^ tier.half.toNat := by
  rw [UInt64.toNat_and, sound.mask, Nat.and_two_pow_sub_one_eq_mod]

theorem Sound.isHalf_and_mask
    (sound : tier.Sound length)
    (value : UInt64) :
    tier.IsHalf (value &&& tier.mask) := by
  rw [IsHalf, sound.toNat_and_mask]
  exact Nat.mod_lt _ (by positivity)

theorem Sound.toNat_shiftRight_half
    (sound : tier.Sound length)
    (value : UInt64) :
    (value >>> tier.half).toNat = value.toNat / 2 ^ tier.half.toNat := by
  have bound := sound.half
  rw [UInt64.toNat_shiftRight, Nat.mod_eq_of_lt (by omega),
    Nat.shiftRight_eq_div_pow]

/-- Joining two halves loses no bit. -/
theorem Sound.toNat_join
    (sound : tier.Sound length)
    {left right : UInt64}
    (leftHalf : tier.IsHalf left)
    (rightHalf : tier.IsHalf right) :
    (left <<< tier.half ||| right).toNat =
      left.toNat * 2 ^ tier.half.toNat + right.toNat := by
  have bound := sound.half
  have fits : left.toNat * 2 ^ tier.half.toNat < 2 ^ 64 := by
    calc
      left.toNat * 2 ^ tier.half.toNat
          < 2 ^ tier.half.toNat * 2 ^ tier.half.toNat :=
        Nat.mul_lt_mul_of_pos_right leftHalf (by positivity)
      _ = 2 ^ (2 * tier.half.toNat) := by rw [← pow_add]; congr 1; omega
      _ < 2 ^ 64 := sound.block_lt_wordSize
  have noWrap : tier.half.toNat % 64 = tier.half.toNat := by omega
  rw [UInt64.toNat_or, UInt64.toNat_shiftLeft, noWrap, Nat.shiftLeft_eq,
    Nat.mod_eq_of_lt fits, ← Nat.shiftLeft_eq,
    ← Nat.shiftLeft_add_eq_or_of_lt rightHalf]

/-- Joined halves lie in the block. -/
theorem Sound.join_mem_block
    (sound : tier.Sound length)
    {left right : UInt64}
    (leftHalf : tier.IsHalf left)
    (rightHalf : tier.IsHalf right) :
    left <<< tier.half ||| right ∈ tier.block := by
  rw [sound.mem_block, sound.toNat_join leftHalf rightHalf]
  calc
    left.toNat * 2 ^ tier.half.toNat + right.toNat
        < left.toNat * 2 ^ tier.half.toNat + 2 ^ tier.half.toNat :=
      Nat.add_lt_add_left rightHalf _
    _ = (left.toNat + 1) * 2 ^ tier.half.toNat := (Nat.succ_mul _ _).symm
    _ ≤ 2 ^ tier.half.toNat * 2 ^ tier.half.toNat :=
      Nat.mul_le_mul_right _ leftHalf
    _ = 2 ^ (2 * tier.half.toNat) := by rw [← pow_add]; congr 1; omega

/-- Two pairs of halves with the same join are the same pair. -/
theorem Sound.join_injective
    (sound : tier.Sound length)
    {left right left' right' : UInt64}
    (leftHalf : tier.IsHalf left)
    (rightHalf : tier.IsHalf right)
    (leftHalf' : tier.IsHalf left')
    (rightHalf' : tier.IsHalf right')
    (equal : left <<< tier.half ||| right = left' <<< tier.half ||| right') :
    (left, right) = (left', right') := by
  have numbers := congrArg UInt64.toNat equal
  rw [sound.toNat_join leftHalf rightHalf,
    sound.toNat_join leftHalf' rightHalf'] at numbers
  have positive : 0 < 2 ^ tier.half.toNat := by positivity
  have rights := congrArg (· % 2 ^ tier.half.toNat) numbers
  have lefts := congrArg (· / 2 ^ tier.half.toNat) numbers
  simp only [Nat.mul_add_mod_self_right, Nat.mod_eq_of_lt rightHalf,
    Nat.mod_eq_of_lt rightHalf'] at rights
  simp only [Nat.add_comm (_ * _), Nat.add_mul_div_right _ _ positive,
    Nat.div_eq_of_lt rightHalf, Nat.div_eq_of_lt rightHalf',
    Nat.zero_add] at lefts
  rw [UInt64.toNat_inj.mp rights, UInt64.toNat_inj.mp lefts]

/-- A number of the block is determined by its two halves. -/
theorem Sound.split_injective
    (sound : tier.Sound length)
    {x y : UInt64}
    (xInBlock : x ∈ tier.block)
    (yInBlock : y ∈ tier.block)
    (equal : ((x >>> tier.half) &&& tier.mask, x &&& tier.mask) =
      ((y >>> tier.half) &&& tier.mask, y &&& tier.mask)) :
    x = y := by
  rw [sound.mem_block, show 2 * tier.half.toNat =
    tier.half.toNat + tier.half.toNat by omega, pow_add] at xInBlock yInBlock
  obtain ⟨highs, lows⟩ := Prod.mk.inj equal
  have highNumbers := congrArg UInt64.toNat highs
  have lowNumbers := congrArg UInt64.toNat lows
  rw [sound.toNat_and_mask, sound.toNat_and_mask, sound.toNat_shiftRight_half,
    sound.toNat_shiftRight_half,
    Nat.mod_eq_of_lt (Nat.div_lt_of_lt_mul xInBlock),
    Nat.mod_eq_of_lt (Nat.div_lt_of_lt_mul yInBlock)] at highNumbers
  rw [sound.toNat_and_mask, sound.toNat_and_mask] at lowNumbers
  apply UInt64.toNat_inj.mp
  rw [← Nat.div_add_mod x.toNat (2 ^ tier.half.toNat),
    ← Nat.div_add_mod y.toNat (2 ^ tier.half.toNat), highNumbers, lowNumbers]

end Tier

namespace Generator

variable (generator : Generator) {tier : Tier} {length : Nat}

/-- The halves of `feistel` after this many rounds. -/
def halvesAfter (x : UInt64) (tier : Tier) (length count : Nat) : UInt64 × UInt64 :=
  Foundation.Feistel.network (· ^^^ ·)
    (fun index right => generator.round index length right tier.mask)
    count ((x >>> tier.half) &&& tier.mask, x &&& tier.mask)

/-- The halves of `feistel` fit in their width, after any number of rounds. -/
theorem halvesAfter_isHalf
    (sound : tier.Sound length)
    (x : UInt64)
    (count : Nat) :
    tier.IsHalf (generator.halvesAfter x tier length count).1 ∧
      tier.IsHalf (generator.halvesAfter x tier length count).2 := by
  refine Foundation.Feistel.network_mem ?_ ?_ count
    (sound.isHalf_and_mask _) (sound.isHalf_and_mask _)
  · intro half value halfBound valueBound
    unfold Tier.IsHalf
    rw [UInt64.toNat_xor]
    exact Nat.xor_lt_two_pow halfBound valueBound
  · intro index half
    exact sound.isHalf_and_mask _

theorem feistel_mem_block
    (sound : tier.Sound length)
    (x : UInt64) :
    generator.feistel x tier length ∈ tier.block := by
  obtain ⟨leftHalf, rightHalf⟩ := generator.halvesAfter_isHalf sound x rounds
  exact sound.join_mem_block leftHalf rightHalf

/-- `feistel` is a permutation of the block for every keyed hash. -/
theorem feistel_injOn (sound : tier.Sound length) :
    Set.InjOn (fun x => generator.feistel x tier length) tier.block := by
  intro x xInBlock y yInBlock equal
  obtain ⟨xLeft, xRight⟩ := generator.halvesAfter_isHalf sound x rounds
  obtain ⟨yLeft, yRight⟩ := generator.halvesAfter_isHalf sound y rounds
  have networks := sound.join_injective xLeft xRight yLeft yRight equal
  have splits := Foundation.Feistel.network_injective
    (fun value left right same => (UInt64.xor_left_inj value).mp same)
    (fun index right => generator.round index length right tier.mask)
    rounds networks
  exact sound.split_injective xInBlock yInBlock splits

theorem outside_card_lt_walkLimit (sound : tier.Sound length) :
    (tier.block.filter fun x => ¬x < tier.size).card < walkLimit tier :=
  Nat.lt_succ_of_le sound.outside_card

/-- The loop of `permute` ends on every number of the tier. -/
theorem permute_isSome
    (sound : tier.Sound length)
    {x : UInt64}
    (inTier : x < tier.size) :
    (generator.permute x tier length).isSome :=
  Foundation.CycleWalk.walk_isSome
    (fun point _ => generator.feistel_mem_block sound point)
    (generator.feistel_injOn sound) (sound.mem_block_of_lt inTier) inTier
    (outside_card_lt_walkLimit sound)

/-- The loop of `permute` ends inside the tier. -/
theorem permute_lt
    {x y : UInt64}
    (ended : generator.permute x tier length = some y) :
    y < tier.size := by
  obtain ⟨_, _, _, inTier, _⟩ :=
    (Foundation.CycleWalk.walk_eq_some_iff _ _ _).mp ended
  exact inTier

theorem permute_injective
    (sound : tier.Sound length)
    {x y result : UInt64}
    (xInTier : x < tier.size)
    (yInTier : y < tier.size)
    (xEnded : generator.permute x tier length = some result)
    (yEnded : generator.permute y tier length = some result) :
    x = y :=
  Foundation.CycleWalk.walk_injective
    (fun point _ => generator.feistel_mem_block sound point)
    (generator.feistel_injOn sound) (sound.mem_block_of_lt xInTier)
    (sound.mem_block_of_lt yInTier) xInTier yInTier xEnded yEnded

theorem permute_surjective
    (sound : tier.Sound length)
    {result : UInt64}
    (inTier : result < tier.size) :
    ∃ x < tier.size, generator.permute x tier length = some result := by
  obtain ⟨x, _, xInTier, ended⟩ := Foundation.CycleWalk.walk_surjective
    (fun point _ => generator.feistel_mem_block sound point)
    (generator.feistel_injOn sound) (outside_card_lt_walkLimit sound)
    (sound.mem_block_of_lt inTier) inTier
  exact ⟨x, xInTier, ended⟩

/-! ## How long the loop runs -/

/-- `feistel` loses no bit of this number: it fits in two halves, which are cut
off, mixed and joined without a carry. -/
structure KeepsBits (tier : Tier) (length : Nat) (x : UInt64) : Prop where
  inBlock : x.toNat < 2 ^ (2 * tier.half.toNat)
  split : x.toNat =
    ((x >>> tier.half) &&& tier.mask).toNat * 2 ^ tier.half.toNat +
      (x &&& tier.mask).toNat
  halves : ∀ count,
    (generator.halvesAfter x tier length count).1.toNat < 2 ^ tier.half.toNat ∧
      (generator.halvesAfter x tier length count).2.toNat < 2 ^ tier.half.toNat
  join : (generator.feistel x tier length).toNat =
    (generator.halvesAfter x tier length rounds).1.toNat * 2 ^ tier.half.toNat +
      (generator.halvesAfter x tier length rounds).2.toNat

theorem keepsBits_of_mem_block
    (sound : tier.Sound length)
    {x : UInt64}
    (inBlock : x ∈ tier.block) :
    generator.KeepsBits tier length x := by
  have bound := (sound.mem_block x).mp inBlock
  have high : x.toNat / 2 ^ tier.half.toNat < 2 ^ tier.half.toNat := by
    apply Nat.div_lt_of_lt_mul
    rwa [← pow_add, ← two_mul]
  obtain ⟨left, right⟩ := generator.halvesAfter_isHalf sound x rounds
  constructor
  · exact bound
  · rw [sound.toNat_and_mask, sound.toNat_and_mask, sound.toNat_shiftRight_half,
      Nat.mod_eq_of_lt high]
    exact (Nat.div_add_mod' _ _).symm
  · exact generator.halvesAfter_isHalf sound x
  · exact sound.toNat_join left right

/-- **The loop of `permute`.**  For every keyed hash, every code length and every
number below 62 to that length, the loop ends after at most as many applications
as the block has numbers outside the tier, plus one, at the first result that
lies in the tier; and no application on the way loses a bit. -/
theorem permute_ends
    (positive : 1 ≤ length)
    (bounded : length ≤ maxLen)
    {x : UInt64}
    (inTier : x.toNat < 62 ^ length) :
    let tier := tiers length
    let step := fun x => generator.feistel x tier length
    (∃ count result,
      1 ≤ count ∧ count ≤ 2 ^ (2 * tier.half.toNat) - 62 ^ length + 1 ∧
        step^[count] x = result ∧ result.toNat < 62 ^ length ∧
        (∀ earlier, 1 ≤ earlier → earlier < count →
          62 ^ length ≤ (step^[earlier] x).toNat) ∧
        generator.permute x tier length = some result) ∧
      ∀ applications, generator.KeepsBits tier length (step^[applications] x) := by
  intro tier step
  have sound : tier.Sound length := tiers_sound positive bounded
  have start : x < tier.size := by
    rwa [UInt64.lt_iff_toNat_lt, sound.size]
  have inside := sound.mem_block_of_lt start
  constructor
  · obtain ⟨result, ended⟩ :=
      Option.isSome_iff_exists.mp (generator.permute_isSome sound start)
    obtain ⟨count, within, reached, hit, missed⟩ :=
      (Foundation.CycleWalk.walk_eq_some_iff _ _ _).mp ended
    rw [walkLimit, sound.size] at within
    rw [UInt64.lt_iff_toNat_lt, sound.size] at hit
    refine ⟨count + 1, result, by omega, within, reached, hit, ?_, ended⟩
    intro earlier first before
    have outside := missed (earlier - 1) (by omega)
    rwa [Nat.sub_add_cancel first, UInt64.lt_iff_toNat_lt, sound.size,
      Nat.not_lt] at outside
  · intro applications
    apply generator.keepsBits_of_mem_block sound
    exact Foundation.CycleWalk.iterate_mem
      (fun point _ => generator.feistel_mem_block sound point) inside applications

/-- Codes of one character take at most three applications, here of the network
whose hash is a constant. -/
theorem permute_ends_shortest :
    let generator := newGenerator (fun _ => .replicate 32 7) 1 []
    let step := fun x => generator.feistel x (tiers 1) 1
    ∃ count, 1 ≤ count ∧ count ≤ 3 ∧ (step^[count] 61).toNat < 62 := by
  intro generator step
  obtain ⟨⟨count, result, first, within, reached, hit, -⟩, -⟩ :=
    generator.permute_ends (by decide : 1 ≤ 1) (by decide) (x := 61) (by decide)
  refine ⟨count, first, within.trans (by decide), ?_⟩
  change (step^[count] 61) = result at reached
  rwa [reached]

end Generator

end Id
end Haste
