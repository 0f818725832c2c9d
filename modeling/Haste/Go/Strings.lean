import Mathlib.Data.List.DropRight
import Mathlib.Data.List.Infix

/-!
# Go strings

A Go string or byte slice is a list of bytes.  Functions that speak of
characters decode it as UTF-8 the way Go does: a byte that starts no valid
encoding is one character of its own, the replacement character.
-/

namespace Haste
namespace Go

/-- A Go string or byte slice. -/
abbrev Bytes := List UInt8

/-- The bytes of an ASCII literal. -/
def ascii (text : String) : Bytes := text.toList.map Char.toUInt8

/-- `unicode.ReplacementChar`, which stands for an invalid byte. -/
def runeError : Nat := 0xFFFD

/-- A byte in a range. -/
def between (low high byte : UInt8) : Bool :=
  low ≤ byte && byte ≤ high

/-- The six bits a continuation byte carries. -/
def payload (byte : UInt8) : Nat := byte.toNat % 64

/-- `utf8.DecodeRuneInString`: the first character and its width in bytes. -/
def decodeRune : Bytes → Nat × Nat
  | [] => (runeError, 0)
  | first :: rest =>
      if first < 0x80 then (first.toNat, 1)
      else if between 0xC2 0xDF first then
        match rest with
        | second :: _ =>
            if between 0x80 0xBF second then
              (first.toNat % 32 * 64 + payload second, 2)
            else (runeError, 1)
        | _ => (runeError, 1)
      else if between 0xE0 0xEF first then
        match rest with
        | second :: third :: _ =>
            let low := if first = 0xE0 then 0xA0 else 0x80
            let high := if first = 0xED then 0x9F else 0xBF
            if between low high second && between 0x80 0xBF third then
              (first.toNat % 16 * 4096 + payload second * 64 + payload third, 3)
            else (runeError, 1)
        | _ => (runeError, 1)
      else if between 0xF0 0xF4 first then
        match rest with
        | second :: third :: fourth :: _ =>
            let low := if first = 0xF0 then 0x90 else 0x80
            let high := if first = 0xF4 then 0x8F else 0xBF
            if between low high second && between 0x80 0xBF third &&
                between 0x80 0xBF fourth then
              (first.toNat % 8 * 262144 + payload second * 4096 +
                payload third * 64 + payload fourth, 4)
            else (runeError, 1)
        | _ => (runeError, 1)
      else (runeError, 1)

/-- The characters of a string, each with the bytes it was decoded from.  The
first argument counts the bytes of the current character still to be passed. -/
def charactersFrom : Nat → Bytes → List (Nat × Bytes)
  | _, [] => []
  | skip + 1, _ :: rest => charactersFrom skip rest
  | 0, first :: rest =>
      let decoded := decodeRune (first :: rest)
      (decoded.1, (first :: rest).take decoded.2) ::
        charactersFrom (decoded.2 - 1) rest

/-- The characters of a string, in order. -/
def characters (text : Bytes) : List (Nat × Bytes) := charactersFrom 0 text

/-- `utf8.RuneCountInString`. -/
def runeCount (text : Bytes) : Nat := (characters text).length

/-- `unicode.IsSpace`. -/
def isSpace (rune : Nat) : Bool :=
  (0x09 ≤ rune && rune ≤ 0x0D) || rune == 0x20 || rune == 0x85 ||
    rune == 0xA0 || rune == 0x1680 || (0x2000 ≤ rune && rune ≤ 0x200A) ||
    rune == 0x2028 || rune == 0x2029 || rune == 0x202F || rune == 0x205F ||
    rune == 0x3000

/-- `unicode.IsControl`. -/
def isControl (rune : Nat) : Bool :=
  rune ≤ 0x1F || (0x7F ≤ rune && rune ≤ 0x9F)

/-- `unicode.Is(unicode.Bidi_Control, ·)`. -/
def isBidiControl (rune : Nat) : Bool :=
  rune == 0x061C || rune == 0x200E || rune == 0x200F ||
    (0x202A ≤ rune && rune ≤ 0x202E) || (0x2066 ≤ rune && rune ≤ 0x2069)

/-- `strings.TrimSpace`. -/
def trimSpace (text : Bytes) : Bytes :=
  (((characters text).dropWhile fun character => isSpace character.1).rdropWhile
    fun character => isSpace character.1).flatMap Prod.snd

/-- Lower case of one character.  Only the results that are ASCII are spelled
out: besides the capital letters these are the Kelvin sign and the dotted
capital I.  Every other character is left alone, which no comparison with
ASCII text can tell from its lower case. -/
def lowerCharacter (character : Nat × Bytes) : Bytes :=
  if 0x41 ≤ character.1 && character.1 ≤ 0x5A then
    character.2.map (· + 0x20)
  else if character.1 == 0x212A then [0x6B]
  else if character.1 == 0x0130 then [0x69]
  else character.2

/-- `strings.ToLower`, as far as ASCII text can tell. -/
def toLower (text : Bytes) : Bytes :=
  (characters text).flatMap lowerCharacter

/-- Upper case of one character.  Only the results that are ASCII are spelled
out: besides the small letters these are the dotless i and the long s. -/
def upperCharacter (character : Nat × Bytes) : Bytes :=
  if 0x61 ≤ character.1 && character.1 ≤ 0x7A then
    character.2.map (· - 0x20)
  else if character.1 == 0x0131 then [0x49]
  else if character.1 == 0x017F then [0x53]
  else character.2

/-- `strings.ToUpper`, as far as ASCII text can tell. -/
def toUpper (text : Bytes) : Bytes :=
  (characters text).flatMap upperCharacter

/-- Every byte of ASCII text is one character. -/
theorem characters_cons_of_ascii
    {first : UInt8}
    (isAscii : first < 0x80)
    (rest : Bytes) :
    characters (first :: rest) = (first.toNat, [first]) :: characters rest := by
  have decoded : decodeRune (first :: rest) = (first.toNat, 1) := if_pos isAscii
  change ((decodeRune (first :: rest)).1,
    (first :: rest).take (decodeRune (first :: rest)).2) ::
      charactersFrom ((decodeRune (first :: rest)).2 - 1) rest = _
  rw [decoded]
  rfl

/-- Lower case keeps the length of ASCII text. -/
theorem length_toLower_of_ascii
    {text : Bytes}
    (isAscii : ∀ byte ∈ text, byte < 0x80) :
    (toLower text).length = text.length := by
  induction text with
  | nil => rfl
  | cons first rest inductionHypothesis =>
      obtain ⟨firstAscii, restAscii⟩ := List.forall_mem_cons.mp isAscii
      have one : (lowerCharacter (first.toNat, [first])).length = 1 := by
        unfold lowerCharacter
        split
        · rfl
        · split
          · rfl
          · split <;> rfl
      unfold toLower at inductionHypothesis ⊢
      rw [characters_cons_of_ascii firstAscii, List.flatMap_cons,
        List.length_append, one, inductionHypothesis restAscii,
        List.length_cons, Nat.add_comm]

/-- Simple case folding of one character, as far as ASCII text can tell: besides
the capital letters the Kelvin sign and the long s fold to an ASCII letter. -/
def foldCharacter (character : Nat × Bytes) : Bytes :=
  if 0x41 ≤ character.1 && character.1 ≤ 0x5A then
    character.2.map (· + 0x20)
  else if character.1 == 0x212A then [0x6B]
  else if character.1 == 0x017F then [0x73]
  else character.2

/-- `strings.EqualFold` with an ASCII text. -/
def equalFold (text other : Bytes) : Bool :=
  (characters text).flatMap foldCharacter ==
    (characters other).flatMap foldCharacter

/-- `strings.Cut`, up to the part before the separator. -/
def before (separator : UInt8) (text : Bytes) : Bytes :=
  text.takeWhile (· != separator)

/-- `strings.HasPrefix`. -/
def hasPrefix (text start : Bytes) : Bool := start.isPrefixOf text

/-- `strings.HasSuffix`. -/
def hasSuffix (text ending : Bytes) : Bool := ending.isSuffixOf text

/-- `strings.TrimPrefix`. -/
def trimPrefix (text start : Bytes) : Bytes :=
  if hasPrefix text start then text.drop start.length else text

/-- `strings.Contains`. -/
def contains (text part : Bytes) : Bool := decide (part <:+: text)

/-- `strings.Split`, for a separator of one byte. -/
def split (text : Bytes) (separator : UInt8) : List Bytes :=
  text.splitOn separator

/-- `strconv.Itoa` of a length. -/
def itoa (number : Nat) : Bytes := ascii (toString number)

/-- The digits of a length determine it. -/
theorem itoa_injective : Function.Injective itoa := by
  have read : ∀ number, (itoa number).map (fun byte => Char.ofNat byte.toNat) =
      Nat.toDigits 10 number := by
    intro number
    unfold itoa ascii
    rw [Nat.toString_eq_ofList_toDigits, String.toList_ofList, List.map_map]
    refine (List.map_congr_left fun digit isDigit => ?_).trans (List.map_id _)
    have small := Nat.isDigit_of_mem_toDigits (by decide) (by decide) isDigit
    simp only [Char.isDigit, Bool.and_eq_true, decide_eq_true_eq] at small
    have within : digit.val.toNat < 2 ^ 8 :=
      lt_of_le_of_lt (UInt32.le_iff_toNat_le.mp small.2) (by decide)
    have kept : digit.val.toUInt8.toNat = digit.toNat := by
      rw [UInt32.toNat_toUInt8, Nat.mod_eq_of_lt within]
      rfl
    simp only [Function.comp_apply, Char.toUInt8, id_eq, kept, Char.ofNat_toNat]
  intro left right same
  have digits : Nat.toDigits 10 left = Nat.toDigits 10 right := by
    rw [← read left, same, read right]
  have value := congrArg (fun text => Nat.ofDigitChars 10 text 0) digits
  simpa using value

/-- The parts of a string hold no separator. -/
theorem notMem_of_mem_split
    {text part : Bytes}
    {separator : UInt8}
    (isPart : part ∈ split text separator) :
    separator ∉ part := by
  induction text generalizing part with
  | nil =>
      rw [split, List.splitOn_nil, List.mem_singleton] at isPart
      simp [isPart]
  | cons first rest inductionHypothesis =>
      unfold split at isPart inductionHypothesis
      rw [List.splitOn_cons_eq_if_modifyHead] at isPart
      split at isPart
      case isTrue =>
        rcases List.mem_cons.mp isPart with rfl | later
        · exact List.not_mem_nil
        · exact inductionHypothesis later
      case isFalse other =>
        obtain ⟨head, tail, parts⟩ :=
          List.exists_cons_of_ne_nil (List.splitOn_ne_nil separator rest)
        rw [parts] at isPart inductionHypothesis
        rcases List.mem_cons.mp isPart with rfl | later
        · have headFree := inductionHypothesis List.mem_cons_self
          simp only [List.mem_cons, not_or]
          exact ⟨fun same => other (by simp [same]), headFree⟩
        · exact inductionHypothesis (List.mem_cons_of_mem _ later)

/-- The characters of ASCII text are its bytes. -/
theorem characters_of_ascii
    {text : Bytes}
    (isAscii : ∀ byte ∈ text, byte < 0x80) :
    characters text = text.map fun byte => (byte.toNat, [byte]) := by
  induction text with
  | nil => rfl
  | cons first rest inductionHypothesis =>
      obtain ⟨firstAscii, restAscii⟩ := List.forall_mem_cons.mp isAscii
      rw [characters_cons_of_ascii firstAscii, inductionHypothesis restAscii,
        List.map_cons]

/-- ASCII text that neither starts nor ends with a space is not trimmed. -/
theorem trimSpace_of_ascii
    {first last : UInt8}
    {middle : Bytes}
    (isAscii : ∀ byte ∈ first :: middle ++ [last], byte < 0x80)
    (firstVisible : isSpace first.toNat = false)
    (lastVisible : isSpace last.toNat = false) :
    trimSpace (first :: middle ++ [last]) = first :: middle ++ [last] := by
  unfold trimSpace
  rw [characters_of_ascii isAscii, List.map_append, List.map_cons,
    List.map_singleton, List.cons_append, List.dropWhile_cons_of_neg,
    ← List.cons_append, List.rdropWhile_concat_neg]
  · simp [List.flatMap_map]
  · simp [lastVisible]
  · simp [firstVisible]

example : toLower (ascii "aPi") = ascii "api" := by decide

example : trimSpace (ascii "  prod crash log \n") = ascii "prod crash log" := by
  decide

end Go
end Haste
