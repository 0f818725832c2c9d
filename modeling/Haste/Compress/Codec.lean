import Haste.Go.Strings

/-!
# Paste bodies as zstd frames

A body is encoded twice, plainly and against the prebuilt dictionary, and the
smaller frame is kept with the id of its codec.  The zstd library is a
parameter: its two encoders and its two decoders, which take a limit on the
decoded size.
-/

namespace Haste
namespace Compress

open Go

/-- `CodecZstd`: a plain zstd frame. -/
def codecZstd : Int := 0

/-- `CodecZstdDict`: a zstd frame built against the dictionary. -/
def codecZstdDict : Int := 1

/-- The functions of the zstd library, the dictionary built in. -/
structure Gozstd where
  compressLevel : Bytes → Int → Bytes
  compressDict : Bytes → Int → Bytes
  decompressLimited : Bytes → Int → Option Bytes
  decompressDictLimited : Bytes → Int → Option Bytes

/-- Each decoder inverts its encoder when the limit is the size encoded. -/
structure Gozstd.Inverts (zstd : Gozstd) : Prop where
  plain : ∀ source level,
    zstd.decompressLimited (zstd.compressLevel source level) source.length =
      some source
  dict : ∀ source level,
    zstd.decompressDictLimited (zstd.compressDict source level) source.length =
      some source

/-- Why a body cannot be decoded. -/
inductive Error
  | decodeFrame
  | decodeDictionaryFrame
  | unknownCodec (codec : Int)
  deriving DecidableEq, Repr

/-- The text of an error, up to the cause the library gives. -/
def Error.message : Error → String
  | .decodeFrame => "compress: decode frame"
  | .decodeDictionaryFrame => "compress: decode dictionary frame"
  | .unknownCodec codec => "compress: unknown codec id " ++ toString codec

/-- `Codec`: the library at a compression level. -/
structure Codec where
  zstd : Gozstd
  level : Int

namespace Codec

variable (codec : Codec)

/-- `Codec.Compress`: the smaller of the two frames, and its codec id. -/
def compress (source : Bytes) : Bytes × Int :=
  let plain := codec.zstd.compressLevel source codec.level
  let dicted := codec.zstd.compressDict source codec.level
  if dicted.length < plain.length then (dicted, codecZstdDict)
  else (plain, codecZstd)

/-- `Codec.Decompress`: dispatch on the recorded codec id. -/
def decompress (blob : Bytes) (codecId limit : Int) : Except Error Bytes :=
  if codecId = codecZstd then
    match codec.zstd.decompressLimited blob limit with
    | some source => .ok source
    | none => .error .decodeFrame
  else if codecId = codecZstdDict then
    match codec.zstd.decompressDictLimited blob limit with
    | some source => .ok source
    | none => .error .decodeDictionaryFrame
  else .error (.unknownCodec codecId)

/-- A frame is read back at any level, since its id says how it was made. -/
theorem decompress_compress
    {codec other : Codec}
    (inverts : codec.zstd.Inverts)
    (sameLibrary : other.zstd = codec.zstd)
    (source : Bytes) :
    other.decompress (codec.compress source).1 (codec.compress source).2
      source.length = .ok source := by
  unfold decompress compress
  rw [sameLibrary]
  by_cases smaller :
      (codec.zstd.compressDict source codec.level).length <
        (codec.zstd.compressLevel source codec.level).length
  · simp [smaller, codecZstd, codecZstdDict, inverts.dict]
  · simp [smaller, codecZstd, inverts.plain]

end Codec

/-- The frame zstd makes of a short text it cannot shorten: the magic number, a
header with the size in one byte, and one last block of raw bytes. -/
def rawFrame (source : Bytes) : Bytes :=
  let header := source.length * 8 + 1
  [0x28, 0xB5, 0x2F, 0xFD, 0x20, UInt8.ofNat source.length,
    UInt8.ofNat header, UInt8.ofNat (header / 256),
    UInt8.ofNat (header / 65536)] ++ source

/-- Read a frame of one raw block within a limit. -/
def readRawFrame (frame : Bytes) (limit : Int) : Option Bytes :=
  let source := frame.drop 9
  if source.length ≤ limit ∧ frame = rawFrame source then some source else none

/-- A library that stores every text in a raw block, as zstd does with short
ones. -/
def rawFrames : Gozstd where
  compressLevel source _ := rawFrame source
  compressDict source _ := rawFrame source
  decompressLimited := readRawFrame
  decompressDictLimited := readRawFrame

theorem readRawFrame_rawFrame (source : Bytes) :
    readRawFrame (rawFrame source) source.length = some source := by
  have dropped : (rawFrame source).drop 9 = source := rfl
  unfold readRawFrame
  simp [dropped]

theorem rawFrames_inverts : rawFrames.Inverts where
  plain source _ := readRawFrame_rawFrame source
  dict source _ := readRawFrame_rawFrame source

end Compress
end Haste
