import Haste.Foundation.Scanning
import Haste.Go.Unquote

/-!
# Parsing a query string

`net/url` takes a query string apart at every ampersand and each parameter at
its first equals sign, and undoes the escapes of both halves.  A parameter that
holds a semicolon or a broken escape is left out without a word.
-/

namespace Haste
namespace Go

/-- The byte that an escaped text starts with, and the width of its escape. -/
def percentStep : Bytes → Option (UInt8 × Nat)
  | [] => none
  | 0x25 :: first :: second :: _ => do
      let first ← hexValue first
      let second ← hexValue second
      return ((first * 16 + second).toUInt8, 3)
  | 0x25 :: _ => none
  | 0x2B :: _ => some (0x20, 1)
  | byte :: _ => some (byte, 1)

/-- `url.QueryUnescape`, or none if an escape is broken. -/
def queryUnescape (text : Bytes) : Option Bytes :=
  Scanning.scan percentStep text

/-- `strings.Cut` at the first separator, which neither part holds. -/
def cut (separator : UInt8) (text : Bytes) : Bytes × Bytes :=
  (before separator text, (text.dropWhile (· != separator)).drop 1)

/-- One parameter of a query string, or none if it is malformed. -/
def parseParameter (parameter : Bytes) : Option (Bytes × Bytes) :=
  if 0x3B ∈ parameter ∨ parameter = [] then none
  else do
    let name ← queryUnescape (cut 0x3D parameter).1
    let value ← queryUnescape (cut 0x3D parameter).2
    return (name, value)

/-- The parameters of a query string as they are written. -/
def parameters (query : Bytes) : List Bytes := split query 0x26

/-- `URL.Query`, which drops what is malformed.  A query string of more
parameters than the runtime's limit `urlmaxqueryparams` is not parsed at all;
zero stands for no limit. -/
def parseQuery (limit : Nat) (query : Bytes) : List (Bytes × Bytes) :=
  if limit ≠ 0 ∧ limit < (parameters query).length then []
  else (parameters query).filterMap parseParameter

example :
    parseQuery 0 (ascii "a=%41+b&&c;d=1&e=%4&f") =
      [(ascii "a", ascii "A b"), (ascii "f", [])] := by
  decide +kernel

/-- A parameter that is not empty and has no semicolon is read if its value is;
its name is read before. -/
theorem parseParameter_isSome_iff
    {parameter name : Bytes}
    (named : queryUnescape (before 0x3D parameter) = some name)
    (nonempty : name ≠ []) :
    (∃ value, parseParameter parameter = some (name, value)) ↔
      0x3B ∉ parameter ∧ (queryUnescape (cut 0x3D parameter).2).isSome := by
  have written : parameter ≠ [] := by
    rintro rfl
    cases named
    exact nonempty rfl
  have readName : queryUnescape (cut 0x3D parameter).1 = some name := named
  unfold parseParameter
  by_cases semicolon : 0x3B ∈ parameter
  · simp [semicolon]
  · rw [if_neg (not_or.mpr ⟨semicolon, written⟩), readName]
    cases queryUnescape (cut 0x3D parameter).2 <;> simp [semicolon]

/-- The name of a parameter that is read is what is written before the first
equals sign. -/
theorem name_of_parseParameter
    {parameter name value : Bytes}
    (read : parseParameter parameter = some (name, value)) :
    queryUnescape (before 0x3D parameter) = some name := by
  unfold parseParameter at read
  split at read
  · cases read
  · simp only [Option.bind_eq_bind, Option.bind_eq_some_iff, Option.pure_def,
      Option.some.injEq, Prod.mk.injEq] at read
    obtain ⟨readName, isName, _, _, rfl, _⟩ := read
    exact isName

theorem mem_parseQuery
    {limit : Nat}
    {query : Bytes}
    {pair : Bytes × Bytes} :
    pair ∈ parseQuery limit query ↔
      (limit = 0 ∨ (parameters query).length ≤ limit) ∧
        ∃ parameter ∈ parameters query, parseParameter parameter = some pair := by
  unfold parseQuery
  split
  case isTrue tooMany =>
    simp only [List.not_mem_nil, false_iff, not_and]
    omega
  case isFalse few =>
    rw [List.mem_filterMap]
    exact (and_iff_right (by omega)).symm

end Go
end Haste
