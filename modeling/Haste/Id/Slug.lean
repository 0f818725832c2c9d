import Haste.Foundation.CycleWalk
import Haste.Foundation.Feistel
import Haste.Go.Strings

/-!
# Share codes

Sequence numbers become share codes by walking the code lengths from the
configured minimum up to ten characters.  Inside a length the number runs
through a keyed Feistel permutation with cycle walking and is written in
base 62 with a fixed width.
-/

namespace Haste
namespace Id

open Go

/-- `Alphabet`: base 62 in ASCII order. -/
def alphabet : Bytes :=
  ascii "0123456789ABCDEFGHIJKLMNOPQRSTUVWXYZabcdefghijklmnopqrstuvwxyz"

/-- `base`. -/
def base : UInt64 := 62

/-- `MaxLen`, the last code length. -/
def maxLen : Nat := 10

/-- `rounds`, the number of Feistel rounds. -/
def rounds : Nat := 4

/-- What the package answers instead of a code. -/
inductive Error
  | sequenceStartsAtOne
  | exhausted
  | minLenOutOfRange (minLen : Int)
  /-- The walk of `permute` has not come back; no sequence number meets it. -/
  | diverged
  deriving DecidableEq, Repr

/-- The text of an error. -/
def Error.message : Error → String
  | .sequenceStartsAtOne => "id: sequence numbers start at 1"
  | .exhausted => "id: code space exhausted"
  | .minLenOutOfRange minLen =>
      "id: minimum length " ++ toString minLen ++ " out of range 1.." ++
        toString maxLen
  | .diverged => "id: permutation walk has not ended"

/-- `tier`: how many codes one length holds, and the Feistel block that covers
them. -/
structure Tier where
  size : UInt64
  half : UInt64
  mask : UInt64
  deriving DecidableEq, Repr

/-- `bits.Len64`. -/
def len64 (value : UInt64) : UInt64 :=
  if value = 0 then 0 else UInt64.ofNat (Nat.log2 value.toNat + 1)

/-- The running product of `init`: 62 to the code length. -/
def tierSize : Nat → UInt64
  | 0 => 1
  | length + 1 => tierSize length * base

/-- The table `tiers` as `init` fills it, for the lengths from 1 on. -/
def tiers (length : Nat) : Tier :=
  let size := tierSize length
  let half := (len64 (size - 1) + 1) / 2
  { size, half, mask := 1 <<< half - 1 }

/-- `Generator`.  The secret key enters the code only through the keyed hash
`hmac.New(sha256.New, key)`, here the function from a message to its digest.
The minimum length lies in range because `NewGenerator` clamps it. -/
structure Generator where
  mac : Bytes → Vector UInt8 32
  minLen : Nat
  reserved : List Bytes
  minLen_pos : 1 ≤ minLen
  minLen_le : minLen ≤ maxLen

/-- The clamp of `NewGenerator`. -/
def clampMinLen (minLen : Int) : Nat :=
  if minLen < 1 then 1
  else if (maxLen : Int) < minLen then maxLen
  else minLen.toNat

theorem clampMinLen_pos (minLen : Int) : 1 ≤ clampMinLen minLen := by
  unfold clampMinLen maxLen
  split
  · exact le_rfl
  · split <;> omega

theorem clampMinLen_le (minLen : Int) : clampMinLen minLen ≤ maxLen := by
  unfold clampMinLen maxLen
  split
  · omega
  · split <;> omega

/-- `NewGenerator`: reserved words are kept in lower case. -/
def newGenerator
    (mac : Bytes → Vector UInt8 32)
    (minLen : Int)
    (reserved : List Bytes) : Generator where
  mac := mac
  minLen := clampMinLen minLen
  reserved := reserved.map toLower
  minLen_pos := clampMinLen_pos minLen
  minLen_le := clampMinLen_le minLen

/-- `binary.BigEndian.PutUint64`. -/
def putUint64 (value : UInt64) : Bytes :=
  ([56, 48, 40, 32, 24, 16, 8, 0] : List UInt64).map
    fun shift => (value >>> shift).toUInt8

/-- `binary.BigEndian.Uint64`. -/
def uint64 (bytes : Bytes) : UInt64 :=
  bytes.foldl (fun value byte => value <<< 8 ||| byte.toUInt64) 0

namespace Generator

variable (generator : Generator)

/-- `Generator.round`: the masked head of the keyed hash of the round number,
the code length and the half. -/
def round (index length : Nat) (value mask : UInt64) : UInt64 :=
  let buffer := UInt8.ofNat index :: UInt8.ofNat length :: putUint64 value
  uint64 ((generator.mac buffer).toList.take 8) &&& mask

/-- `Generator.feistel`. -/
def feistel (x : UInt64) (tier : Tier) (length : Nat) : UInt64 :=
  let halves := Foundation.Feistel.network (· ^^^ ·)
    (fun index right => generator.round index length right tier.mask)
    rounds ((x >>> tier.half) &&& tier.mask, x &&& tier.mask)
  halves.1 <<< tier.half ||| halves.2

/-- The number of Feistel applications granted to the loop of `permute`, which
has no counter in the source: the points of the block outside the tier, plus
one. -/
def walkLimit (tier : Tier) : Nat :=
  2 ^ (2 * tier.half.toNat) - tier.size.toNat + 1

/-- `Generator.permute`: apply the network until the result lies in the tier.
`none` would be a walk that has not ended. -/
def permute (x : UInt64) (tier : Tier) (length : Nat) : Option UInt64 :=
  Foundation.CycleWalk.walk (fun x => generator.feistel x tier length)
    (· < tier.size) (walkLimit tier) x

end Generator

/-- The loop of `encode`, from the last position to the first. -/
def encodeFrom : Nat → UInt64 → Bytes → Bytes
  | 0, _, buffer => buffer
  | position + 1, value, buffer =>
      encodeFrom position (value / base)
        (alphabet.getD (value % base).toNat 0 :: buffer)

/-- `encode`: base 62 with a fixed width. -/
def encode (value : UInt64) (length : Nat) : Bytes :=
  encodeFrom length value []

/-- The code lengths a loop from `minLen` to `MaxLen` visits. -/
def lengthsFrom (minLen : Nat) : List Nat :=
  List.range' minLen (maxLen + 1 - minLen)

namespace Generator

variable (generator : Generator)

/-- The loop of `Generator.Code` over the code lengths. -/
def codeAmong : List Nat → UInt64 → Except Error Bytes
  | [], _ => .error .exhausted
  | length :: rest, index =>
      let tier := tiers length
      if index < tier.size then
        match generator.permute index tier length with
        | some value => .ok (encode value length)
        | none => .error .diverged
      else codeAmong rest (index - tier.size)

/-- `Generator.Code`: the share code of a sequence number counted from 1. -/
def code (seq : UInt64) : Except Error Bytes :=
  if seq = 0 then .error .sequenceStartsAtOne
  else generator.codeAmong (lengthsFrom generator.minLen) (seq - 1)

/-- `Generator.IsReserved`. -/
def isReserved (code : Bytes) : Bool :=
  generator.reserved.contains (toLower code)

end Generator

/-- `Capacity`: how many codes there are from `minLen` to `MaxLen` characters. -/
def capacity (minLen : Int) : Except Error UInt64 :=
  if minLen < 1 ∨ (maxLen : Int) < minLen then
    .error (.minLenOutOfRange minLen)
  else
    .ok ((lengthsFrom minLen.toNat).foldl
      (fun total length => total + (tiers length).size) 0)

/-- `Valid`: the shape of a code, whatever the current minimum length. -/
def valid (code : Bytes) : Bool :=
  code.length != 0 && code.length ≤ maxLen &&
    code.all fun byte => alphabet.contains byte

end Id
end Haste
