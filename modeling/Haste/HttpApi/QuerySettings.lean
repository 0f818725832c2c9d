import Haste.Go.Query
import Haste.HttpApi.Expiry

/-!
# Settings in the query string

`create` refuses a request that sets the title, the language or the lifetime in
its query string.  It looks for them among the parameters that the parser kept,
so a setting that the parser dropped is ignored, and the paste is stored
without it.
-/

namespace Haste
namespace HttpApi

open Go Store

/-- The settings that belong in the envelope. -/
def envelopeSettings : List Bytes :=
  ["title", "language", "expiresIn"].map ascii

/-- A parameter of a query string, as it is written, is named like a setting. -/
def IsSetting (parameter : Bytes) : Prop :=
  ∃ name ∈ envelopeSettings, queryUnescape (before 0x3D parameter) = some name

/-- A parameter that the parser keeps. -/
def Kept (parameter : Bytes) : Prop :=
  0x3B ∉ parameter ∧ (queryUnescape (cut 0x3D parameter).2).isSome

/-- Every create request with this query string is refused and nothing is
stored: with status 400, unless it is turned away before the query string is
looked at. -/
def RefusesSettings (limit : Nat) (query : Bytes) : Prop :=
  ∀ unmarshal options (request : Request) env db,
    request.query = parseQuery limit query →
      ∃ error, create unmarshal options request env db = (.error error, db) ∧
        (request.allowed = true → (∃ body, request.body = .ok body) →
          error.status = 400)

theorem envelopeOnlyParam_eq_none_iff (query : List (Bytes × Bytes)) :
    envelopeOnlyParam query = none ↔
      ∀ pair ∈ query, pair.1 ∉ envelopeSettings := by
  simp only [envelopeOnlyParam, envelopeSettings, List.find?_eq_none,
    List.any_eq_true, beq_iff_eq, List.mem_map, not_exists, not_and]
  constructor
  · intro unnamed pair listed name isName same
    exact unnamed name isName pair listed same.symm
  · intro unnamed name isName pair listed same
    exact unnamed pair listed name isName same.symm

/-- No setting is the empty name. -/
theorem ne_nil_of_mem_envelopeSettings
    {name : Bytes}
    (listed : name ∈ envelopeSettings) : name ≠ [] := by
  rintro rfl
  exact absurd listed (by decide)

/-- The check finds a setting exactly when the parser kept one. -/
theorem envelopeOnlyParam_parseQuery (limit : Nat) (query : Bytes) :
    (envelopeOnlyParam (parseQuery limit query)).isSome ↔
      (limit = 0 ∨ (parameters query).length ≤ limit) ∧
        ∃ parameter ∈ parameters query, IsSetting parameter ∧ Kept parameter := by
  rw [← Option.ne_none_iff_isSome, Ne, envelopeOnlyParam_eq_none_iff]
  push Not
  constructor
  · rintro ⟨⟨name, value⟩, kept, isSetting⟩
    obtain ⟨few, parameter, listed, read⟩ := mem_parseQuery.mp kept
    have named := name_of_parseParameter read
    refine ⟨few, parameter, listed, ⟨name, isSetting, named⟩, ?_⟩
    exact (parseParameter_isSome_iff named
      (ne_nil_of_mem_envelopeSettings isSetting)).mp ⟨value, read⟩
  · rintro ⟨few, parameter, listed, ⟨name, isSetting, named⟩, kept⟩
    obtain ⟨value, read⟩ := (parseParameter_isSome_iff named
      (ne_nil_of_mem_envelopeSettings isSetting)).mpr kept
    exact ⟨(name, value), mem_parseQuery.mpr ⟨few, parameter, listed, read⟩,
      isSetting⟩

/-- A request whose setting the check finds. -/
theorem create_of_setting
    (unmarshal : Bytes → Option CreateRequest)
    (options : Options)
    {request : Request}
    (env : Env)
    (db : Database)
    (found : (envelopeOnlyParam request.query).isSome) :
    ∃ error, create unmarshal options request env db = (.error error, db) ∧
      (request.allowed = true → (∃ body, request.body = .ok body) →
        error.status = 400) := by
  obtain ⟨name, isName⟩ := Option.isSome_iff_exists.mp found
  unfold create
  split
  case isTrue limited =>
    exact ⟨_, rfl, fun allowed => by simp [limited] at allowed⟩
  case isFalse =>
    cases arrived : request.body with
    | error reason =>
        cases reason with
        | tooLarge => exact ⟨_, rfl, fun _ ⟨_, isBody⟩ => by cases isBody⟩
        | unreadable => exact ⟨_, rfl, fun _ _ => rfl⟩
    | ok body =>
        simp only [isName]
        exact ⟨_, rfl, fun _ _ => rfl⟩

/-- A request whose query string holds no setting that the parser kept is
answered as if it had no query string. -/
theorem create_of_no_setting
    (unmarshal : Bytes → Option CreateRequest)
    (options : Options)
    {request : Request}
    (env : Env)
    (db : Database)
    (unseen : envelopeOnlyParam request.query = none) :
    create unmarshal options request env db =
      create unmarshal options { request with query := [] } env db := by
  have nothing : envelopeOnlyParam [] = none := by decide
  unfold create
  simp only [unseen, nothing]

/-- A raw body that is stored if no setting is found. -/
def askedRequest (query : List (Bytes × Bytes)) : Request where
  allowed := true
  body := .ok (ascii "a")
  query := query
  contentType := ascii "text/plain"

theorem create_askedRequest
    {query : List (Bytes × Bytes)}
    (unseen : envelopeOnlyParam query = none) :
    (create (fun _ => none) Options.small (askedRequest query) (.calm 0)
      (System.openedFresh Options.small).db).1 =
        .ok (⟨1, ascii "0", [], [], 1, 1, 10, 0, none⟩, ascii "a") := by
  rw [create_of_no_setting _ _ _ _ unseen]
  change (create (fun _ => none) Options.small (askedRequest []) (.calm 0)
    (System.openedFresh Options.small).db).1 = _
  decide +kernel

/-- A setting in the query string is refused with nothing stored if and only if
the parser kept one: the query string is not too long for it, and some
parameter named like a setting has no semicolon and a value whose escapes are
whole. -/
theorem settings_refused_iff (limit : Nat) (query : Bytes) :
    ((∃ parameter ∈ parameters query, IsSetting parameter) →
        RefusesSettings limit query) ↔
      ((∃ parameter ∈ parameters query, IsSetting parameter) →
        (limit = 0 ∨ (parameters query).length ≤ limit) ∧
          ∃ parameter ∈ parameters query, IsSetting parameter ∧ Kept parameter) := by
  apply imp_congr_right
  intro named
  rw [← envelopeOnlyParam_parseQuery]
  constructor
  · intro refuses
    by_contra notFound
    have unseen := Option.not_isSome_iff_eq_none.mp notFound
    obtain ⟨error, refused, _⟩ := refuses (fun _ => none) Options.small
      (askedRequest (parseQuery limit query)) (.calm 0)
      (System.openedFresh Options.small).db rfl
    have stored := create_askedRequest unseen
    rw [refused] at stored
    cases stored
  · intro found unmarshal options request env db same
    apply create_of_setting
    rw [same]
    exact found

/-- A lifetime followed by a semicolon is dropped, and the paste is stored
without one. -/
theorem lifetime_before_semicolon :
    let query := ascii "expiresIn=3600;"
    IsSetting query ∧ parameters query = [query] ∧
      (create (fun _ => none) Options.small (askedRequest (parseQuery 0 query))
        (.calm 0) (System.openedFresh Options.small).db).1 =
          .ok (⟨1, ascii "0", [], [], 1, 1, 10, 0, none⟩, ascii "a") ∧
      ¬RefusesSettings 0 query := by
  intro query
  have stored : (create (fun _ => none) Options.small
      (askedRequest (parseQuery 0 query)) (.calm 0)
      (System.openedFresh Options.small).db).1 =
        .ok (⟨1, ascii "0", [], [], 1, 1, 10, 0, none⟩, ascii "a") :=
    create_askedRequest (by decide +kernel)
  refine ⟨⟨ascii "expiresIn", by decide, by decide +kernel⟩, by decide +kernel,
    stored, fun refuses => ?_⟩
  obtain ⟨error, refused, _⟩ := refuses (fun _ => none) Options.small
    (askedRequest (parseQuery 0 query)) (.calm 0)
    (System.openedFresh Options.small).db rfl
  rw [refused] at stored
  cases stored

end HttpApi
end Haste
