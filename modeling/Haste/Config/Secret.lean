import Haste.Config.Validate
import Haste.Go.Json

/-!
# The key of the share codes

A start takes the key from the environment, else from a file next to the
database, else it draws one and writes it to that file.  The write may stop
anywhere, and the next start takes what it finds: a file that is there and not
empty.
-/

namespace Haste
namespace Config

open Go

/-- `hex.EncodeToString`. -/
def hexEncode (bytes : Bytes) : Bytes := bytes.flatMap hexDigits

/-- How `os.WriteFile` fails: before it empties the file, or after it has also
written a number of bytes. -/
structure WriteFailure where
  written : Option Nat
  cause : Bytes

/-- What a failed write leaves of the file. -/
def WriteFailure.leaves
    (failure : WriteFailure)
    (data : Bytes)
    (file : Option Bytes) : Option Bytes :=
  match failure.written with
  | none => file
  | some count => some (data.take count)

/-- What one `loadIDSecret` meets: the environment variable, whether the file can
be read if it is there, and how the calls that draw and store a key end.  A
process that dies in a call leaves what the failing call leaves. -/
structure SecretCalls where
  environment : Bytes
  readFails : Bool
  random : Except Bytes (Vector UInt8 32)
  mkdirAll : Except Bytes Unit
  writeFile : Except WriteFailure Unit

/-- The bytes `os.ReadFile` gets, none if it fails. -/
def SecretCalls.readFile (calls : SecretCalls) (file : Option Bytes) : Bytes :=
  if calls.readFails then [] else file.getD []

/-- `loadIDSecret`: the key, and the file it leaves. -/
def loadIDSecret
    (calls : SecretCalls)
    (file : Option Bytes) : Except Bytes Bytes × Option Bytes :=
  if calls.environment ≠ [] then (.ok calls.environment, file)
  else if calls.readFile file ≠ [] then (.ok (calls.readFile file), file)
  else
    match calls.random with
    | .error cause => (.error (ascii "config: generate id secret: " ++ cause), file)
    | .ok buf =>
        let secret := hexEncode buf.toList
        match calls.mkdirAll with
        | .error cause =>
            (.error (ascii "config: create data dir: " ++ cause), file)
        | .ok () =>
            match calls.writeFile with
            | .error failure =>
                (.error (ascii "config: persist id secret: " ++ failure.cause),
                  failure.leaves secret file)
            | .ok () => (.ok secret, some secret)

/-- `Load` once the variables are parsed: the settings are checked, then the key
is loaded. -/
def load
    (quoted : Bytes → Bytes)
    (settings : Settings)
    (calls : SecretCalls)
    (file : Option Bytes) : Except Bytes Bytes × Option Bytes :=
  match settings.validate quoted with
  | .error message => (.error message, file)
  | .ok () => loadIDSecret calls file

/-- The file of the key has a key. -/
def HoldsKey (file : Option Bytes) (key : Bytes) : Prop :=
  file = some key ∧ key ≠ []

theorem HoldsKey.unique
    {file : Option Bytes}
    {key other : Bytes}
    (holds : HoldsKey file key)
    (holdsOther : HoldsKey file other) :
    other = key :=
  Option.some.inj (holdsOther.1.symm.trans holds.1)

/-- The key is a head of one that this start has drawn. -/
def SecretCalls.Draws (calls : SecretCalls) (key : Bytes) : Prop :=
  ∃ buf, calls.random = .ok buf ∧ key <+: hexEncode buf.toList

/-- The ways a start without a variable ends. -/
inductive Loads
    (calls : SecretCalls)
    (file : Option Bytes) : Except Bytes Bytes × Option Bytes → Prop
  | kept
      (key : Bytes)
      (holds : HoldsKey file key) :
      Loads calls file (.ok key, file)
  | failed
      (message : Bytes) :
      Loads calls file (.error message, file)
  /-- The write was cut. -/
  | cut
      (message head : Bytes)
      (unread : calls.readFile file = [])
      (draws : calls.Draws head) :
      Loads calls file (.error message, some head)
  | drawn
      (key : Bytes)
      (unread : calls.readFile file = [])
      (draws : calls.Draws key)
      (nonempty : key ≠ []) :
      Loads calls file (.ok key, some key)

theorem hexEncode_ne_nil (buf : Vector UInt8 32) : hexEncode buf.toList ≠ [] := by
  have length : (hexEncode buf.toList).length = 64 := by
    unfold hexEncode
    rw [List.length_flatMap]
    simp [hexDigits]
  intro empty
  rw [empty] at length
  cases length

theorem loads_loadIDSecret
    {calls : SecretCalls}
    (unset : calls.environment = [])
    (file : Option Bytes) :
    Loads calls file (loadIDSecret calls file) := by
  have isUnset : ¬calls.environment ≠ [] := not_not.mpr unset
  unfold loadIDSecret
  rw [if_neg isUnset]
  split
  case isTrue found =>
    cases reads : calls.readFails with
    | true =>
        simp [SecretCalls.readFile, reads] at found
    | false =>
        cases file with
        | none => simp [SecretCalls.readFile, reads] at found
        | some key =>
            have isKey : calls.readFile (some key) = key := by
              simp [SecretCalls.readFile, reads]
            rw [isKey] at found ⊢
            exact .kept key ⟨rfl, found⟩
  case isFalse unread =>
    rw [not_not] at unread
    cases random : calls.random with
    | error cause => exact .failed _
    | ok buf =>
        cases calls.mkdirAll with
        | error cause => exact .failed _
        | ok =>
            cases calls.writeFile with
            | error failure =>
                simp only
                unfold WriteFailure.leaves
                cases failure.written with
                | none => exact .failed _
                | some count =>
                    exact .cut _ _ unread ⟨buf, random, List.take_prefix _ _⟩
            | ok =>
                exact .drawn _ unread ⟨buf, random, List.prefix_rfl⟩
                  (hexEncode_ne_nil buf)

theorem loads_load
    {calls : SecretCalls}
    (unset : calls.environment = [])
    (quoted : Bytes → Bytes)
    (settings : Settings)
    (file : Option Bytes) :
    Loads calls file (load quoted settings calls file) := by
  unfold load
  cases settings.validate quoted with
  | error message => exact .failed message
  | ok => exact loads_loadIDSecret unset file

section Loaded

variable
  {calls : SecretCalls}
  {file : Option Bytes}
  {result : Except Bytes Bytes × Option Bytes}
  (loads : Loads calls file result)
include loads

/-- A key that is loaded is in the file from then on. -/
theorem Loads.holdsKey
    {key : Bytes}
    (loaded : result.1 = .ok key) :
    HoldsKey result.2 key := by
  cases loads with
  | kept _ holds =>
      cases loaded
      exact holds
  | failed message => cases loaded
  | cut message head => cases loaded
  | drawn _ unread draws nonempty =>
      cases loaded
      exact ⟨rfl, nonempty⟩

/-- A key in a file that can be read stays, and no other is loaded. -/
theorem Loads.of_holdsKey
    (readable : calls.readFails = false)
    {key : Bytes}
    (holds : HoldsKey file key) :
    result.2 = file ∧ ∀ loaded, result.1 = .ok loaded → loaded = key := by
  obtain ⟨rfl, nonempty⟩ := holds
  have reads : calls.readFile (some key) ≠ [] := by
    simpa [SecretCalls.readFile, readable] using nonempty
  cases loads with
  | kept other holds =>
      refine ⟨rfl, fun loaded isLoaded => ?_⟩
      cases isLoaded
      exact (Option.some.inj holds.1).symm
  | failed message => exact ⟨rfl, fun _ isLoaded => by cases isLoaded⟩
  | cut message head unread => exact absurd unread reads
  | drawn other unread => exact absurd unread reads

/-- What the file holds afterwards was there, or there was no key and it is a head
of what was drawn. -/
theorem Loads.held_or_draws
    (readable : calls.readFails = false)
    {key : Bytes}
    (held : result.2 = some key) :
    file = some key ∨ (∀ other, ¬HoldsKey file other) ∧ calls.Draws key := by
  have keyless : calls.readFile file = [] → ∀ other, ¬HoldsKey file other := by
    rintro unread other ⟨rfl, nonempty⟩
    refine nonempty ?_
    simpa [SecretCalls.readFile, readable] using unread
  cases loads with
  | kept _ _ | failed message => exact Or.inl held
  | cut message head unread draws | drawn _ unread draws =>
      cases held
      exact Or.inr ⟨keyless unread, draws⟩

end Loaded

end Config
end Haste
