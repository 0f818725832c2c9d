import Haste.Foundation.Runs
import Haste.Go.Digits
import Haste.Go.Float
import Haste.Web.Strings

/-!
# Selecting lines through the address bar

The selection of a paste's page is nothing but the fragment of its address, read
and cut down to the lines that are there.  A click writes a new fragment, which
is read back as the range that the click has selected.
-/

namespace Haste
namespace Web

open Foundation Go

/-- The units of an ASCII literal. -/
def units (text : String) : JsString := (ascii text).map UInt8.toUInt16

/-- `LineRange`, with its `end` as `stop`. -/
structure LineRange where
  start : Nat
  stop : Nat
  deriving DecidableEq, Repr

/-- `\d` -/
def isDigitUnit (unit : UInt16) : Bool := 0x30 ≤ unit && unit ≤ 0x39

/-- One character of a regular expression with a question mark. -/
def optional (unit : UInt16) : JsString → JsString
  | [] => []
  | first :: rest => if first = unit then rest else first :: rest

/-- The part of `HASH` after the first letter: the digits of the first bound and
of the second, if there is one. -/
def boundsMatch (text : JsString) : Option (JsString × Option JsString) :=
  let first := text.takeWhile isDigitUnit
  if first = [] then none
  else match text.dropWhile isDigitUnit with
    | [] => some (first, none)
    | 0x2D :: rest =>
        let second := optional 0x4C rest
        if second ≠ [] ∧ second.all isDigitUnit = true then
          some (first, some second)
        else none
    | _ => none

/-- `HASH.exec`. -/
def hashMatch (text : JsString) : Option (JsString × Option JsString) :=
  match optional 0x23 text with
  | 0x4C :: rest => boundsMatch rest
  | _ => none

/-- The natural number that digits write. -/
def digitsValue (digits : JsString) : Nat :=
  digits.foldl (fun value unit => value * 10 + (unit.toNat - 0x30)) 0

/-- `Number`, of digits: the nearest number, or none for infinity. -/
def toNumber (digits : JsString) : Option Nat :=
  let value := truncate (float64 (digitsValue digits : Int))
  if value < 2 ^ 1024 then some value.toNat else none

/-- `parseLineHash`.  An infinite bound is no integer. -/
def parseLineHash (hash : JsString) : Option LineRange :=
  match hashMatch (trim hash) with
  | none => none
  | some (first, second) =>
      let first := toNumber first
      let second := second.elim first toNumber
      match first, second with
      | some first, some second =>
          if first < 1 ∨ second < 1 then none
          else some { start := min first second, stop := max first second }
      | _, _ => none

/-- A natural number below `10 ^ 21` in a template literal. -/
def decimalUnits (value : Nat) : JsString := (itoa value).map UInt8.toUInt16

/-- `formatLineHash`. -/
def formatLineHash (range : LineRange) : JsString :=
  if range.start = range.stop then units "#L" ++ decimalUnits range.start
  else
    units "#L" ++ decimalUnits range.start ++
      (units "-L" ++ decimalUnits range.stop)

/-- `selectLine`. -/
def selectLine
    (current : Option LineRange)
    (line : Nat)
    (extend : Bool) : LineRange :=
  match extend, current with
  | true, some current =>
      { start := min current.start line, stop := max current.start line }
  | _, _ => { start := line, stop := line }

/-- `clampRange`. -/
def clampRange (range : Option LineRange) (lineCount : Nat) : Option LineRange :=
  match range with
  | none => none
  | some range =>
      if lineCount < range.start then none
      else some { start := range.start, stop := min range.stop lineCount }

/-- `Number.MAX_SAFE_INTEGER` -/
def maxSafeInteger : Nat := 2 ^ 53 - 1

example : parseLineHash (units " #L25-17\n") = some ⟨17, 25⟩ := by decide +kernel

/-- The content of a paste's page.  Its lines are the elements of an array, of
which there are fewer than `2 ^ 32`. -/
structure Page where
  content : Option JsString
  lines_lt : ∀ text ∈ content, (text.splitOn 0x0A).length < 2 ^ 32

namespace Page

variable (page : Page)

/-- `lineCount`.  The empty text is no content. -/
def lineCount : Nat :=
  match page.content with
  | none => 0
  | some [] => 0
  | some text => (text.splitOn 0x0A).length

/-- `selection`, at this fragment of the address. -/
def selection (fragment : JsString) : Option LineRange :=
  clampRange (parseLineHash fragment) page.lineCount

/-- A click on a line of the page, with the shift key or without. -/
structure Click where
  line : Nat
  shift : Bool
  first : 1 ≤ line
  last : line ≤ page.lineCount

/-- `onSelectLine`: the fragment that a click leaves in the address. -/
def onSelectLine (fragment : JsString) (click : page.Click) : JsString :=
  formatLineHash (selectLine (page.selection fragment) click.line click.shift)

end Page

/-! ## Fragments that are read back -/

/-- A digit is the same digit as a unit. -/
theorem isDigitUnit_toUInt16
    {byte : UInt8}
    (isDigit : isDigit byte = true) :
    isDigitUnit byte.toUInt16 = true := by
  simp only [Go.isDigit, between, Bool.and_eq_true, decide_eq_true_eq,
    UInt8.le_iff_toNat_le] at isDigit
  simp only [isDigitUnit, Bool.and_eq_true, decide_eq_true_eq,
    UInt16.le_iff_toNat_le, UInt8.toNat_toUInt16]
  exact isDigit

/-- The digits of a number are read back. -/
theorem digitsValue_decimalUnits (value : Nat) :
    digitsValue (decimalUnits value) = value := by
  have last : ∀ value < 10, (digit value).toUInt16.toNat - 0x30 = value := by decide
  induction value using Nat.strong_induction_on with
  | _ value inductionHypothesis =>
      by_cases small : value < 10
      · simp only [decimalUnits, itoa_of_lt small, List.map_singleton, digitsValue,
          List.foldl_cons, List.foldl_nil, last value small]
        omega
      · have earlier := inductionHypothesis (value / 10) (by omega)
        unfold digitsValue decimalUnits at earlier ⊢
        rw [itoa_of_le (by omega), List.map_append, List.foldl_append, earlier]
        simp only [List.map_cons, List.map_nil, List.foldl_cons, List.foldl_nil,
          last _ (Nat.mod_lt value (by decide))]
        omega

theorem decimalUnits_ne_nil (value : Nat) : decimalUnits value ≠ [] := by
  obtain ⟨first, rest, isText, _⟩ := itoa_digits value
  simp [decimalUnits, isText]

theorem isDigitUnit_decimalUnits (value : Nat) :
    ∀ unit ∈ decimalUnits value, isDigitUnit unit = true := by
  obtain ⟨first, rest, isText, digits, _⟩ := itoa_digits value
  intro unit listed
  obtain ⟨byte, isByte, rfl⟩ := List.mem_map.mp listed
  rw [isText] at isByte
  exact isDigitUnit_toUInt16 (digits byte isByte)

/-- A safe integer is a number. -/
theorem toNumber_decimalUnits
    {value : Nat}
    (safe : value ≤ maxSafeInteger) :
    toNumber (decimalUnits value) = some value := by
  have small : |(value : Int)| < 2 ^ 53 := by
    unfold maxSafeInteger at safe
    rw [abs_of_nonneg (by omega)]
    omega
  have bounded : (value : Int) < 2 ^ 1024 :=
    (lt_of_le_of_lt (le_abs_self _) small).trans
      (pow_lt_pow_right₀ (by decide) (by decide))
  unfold toNumber
  simp only [digitsValue_decimalUnits, float64_intCast small, truncate_intCast]
  rw [if_pos bounded, Int.toNat_natCast]

/-- A digit is no white space and no letter. -/
theorem not_isWhiteSpace_of_isDigitUnit
    {unit : UInt16}
    (isDigit : isDigitUnit unit = true) :
    isWhiteSpace unit = false := by
  simp only [isDigitUnit, Bool.and_eq_true, decide_eq_true_eq,
    UInt16.le_iff_toNat_le] at isDigit
  simp only [isWhiteSpace, Bool.or_eq_false_iff, Bool.and_eq_false_iff,
    decide_eq_false_iff_not, beq_eq_false_iff_ne, UInt16.le_iff_toNat_le, ne_eq,
    ← UInt16.toNat_inj, UInt16.reduceToNat] at isDigit ⊢
  omega

theorem trim_of_forall
    {text : JsString}
    (solid : ∀ unit ∈ text, isWhiteSpace unit = false) :
    trim text = text := by
  unfold trim
  cases text with
  | nil => rfl
  | cons first rest =>
      have last := solid _ (List.getLast_mem (List.cons_ne_nil first rest))
      rw [List.dropWhile_cons_of_neg (by simp [solid first List.mem_cons_self]),
        List.rdropWhile_eq_self_iff]
      intro _
      simp [last]

/-- The digits at the start of a text, before what is no digit. -/
theorem span_digits
    {digits : JsString}
    (areDigits : ∀ unit ∈ digits, isDigitUnit unit = true)
    (rest : JsString)
    (stops : ∀ unit ∈ rest.head?, isDigitUnit unit = false) :
    (digits ++ rest).takeWhile isDigitUnit = digits ∧
      (digits ++ rest).dropWhile isDigitUnit = rest := by
  rw [List.takeWhile_append_of_pos areDigits, List.dropWhile_append_of_pos areDigits]
  cases rest with
  | nil => exact ⟨List.append_nil _, rfl⟩
  | cons unit rest =>
      have stop : ¬isDigitUnit unit = true := by simp [stops unit rfl]
      rw [List.takeWhile_cons_of_neg stop, List.dropWhile_cons_of_neg stop]
      exact ⟨List.append_nil _, rfl⟩

/-- A text of digits, with at least one. -/
structure AreDigits (text : JsString) : Prop where
  nonempty : text ≠ []
  digits : ∀ unit ∈ text, isDigitUnit unit = true

theorem areDigits_decimalUnits (value : Nat) : AreDigits (decimalUnits value) :=
  ⟨decimalUnits_ne_nil value, isDigitUnit_decimalUnits value⟩

theorem AreDigits.optional_eq
    {text : JsString}
    (areDigits : AreDigits text)
    {unit : UInt16}
    (noDigit : isDigitUnit unit = false) :
    optional unit text = text := by
  cases text with
  | nil => rfl
  | cons first rest =>
      refine if_neg ?_
      rintro rfl
      simp [areDigits.digits first List.mem_cons_self] at noDigit

/-- The fragment of one line. -/
theorem boundsMatch_line
    {first : JsString}
    (areDigits : AreDigits first) :
    boundsMatch first = some (first, none) := by
  have scanned := span_digits areDigits.digits [] (by simp)
  rw [List.append_nil] at scanned
  simp only [boundsMatch, scanned, if_neg areDigits.nonempty]

/-- The fragment of a range. -/
theorem boundsMatch_range
    {first second separator : JsString}
    (areDigits : AreDigits first)
    (alsoDigits : AreDigits second)
    (isSeparator : separator ∈ [units "-", units "-L"]) :
    boundsMatch (first ++ (separator ++ second)) = some (first, some second) := by
  obtain ⟨mark, isMark, same⟩ : ∃ mark, separator ++ second = 0x2D :: mark ∧
      optional 0x4C mark = second := by
    simp only [List.mem_cons, List.not_mem_nil, or_false] at isSeparator
    rcases isSeparator with rfl | rfl
    · exact ⟨second, rfl, alsoDigits.optional_eq (by decide)⟩
    · exact ⟨0x4C :: second, rfl, by simp [optional]⟩
  have scanned := span_digits areDigits.digits (separator ++ second)
    (by simp [isMark, isDigitUnit])
  rw [isMark] at scanned ⊢
  simp only [boundsMatch, scanned, if_neg areDigits.nonempty, same]
  exact if_pos ⟨alsoDigits.nonempty, List.all_eq_true.mpr alsoDigits.digits⟩

theorem hashMatch_append
    {lead : JsString}
    (isLead : lead ∈ [units "L", units "#L"])
    (rest : JsString) :
    hashMatch (lead ++ rest) = boundsMatch rest := by
  simp only [List.mem_cons, List.not_mem_nil, or_false] at isLead
  rcases isLead with rfl | rfl
  · rfl
  · rfl

/-- No letter, mark or digit is white space. -/
theorem trim_fragment
    {lead separator : JsString}
    (isLead : lead ∈ [units "L", units "#L"])
    (isSeparator : separator ∈ [[], units "-", units "-L"])
    (first second : JsString)
    (areDigits : ∀ unit ∈ first ++ second, isDigitUnit unit = true) :
    trim (lead ++ (first ++ (separator ++ second))) =
      lead ++ (first ++ (separator ++ second)) := by
  have solid : ∀ mark ∈ [units "L", units "#L"] ++ [[], units "-", units "-L"],
      mark.any isWhiteSpace = false := by decide
  apply trim_of_forall
  intro unit listed
  simp only [List.mem_append] at listed areDigits
  rcases listed with isLead' | isFirst | isMark | isSecond
  · have blank := List.any_eq_false.mp (solid lead (List.mem_append_left _ isLead))
    simpa using blank unit isLead'
  · exact not_isWhiteSpace_of_isDigitUnit (areDigits unit (.inl isFirst))
  · have blank := List.any_eq_false.mp
      (solid separator (List.mem_append_right _ isSeparator))
    simpa using blank unit isMark
  · exact not_isWhiteSpace_of_isDigitUnit (areDigits unit (.inr isSecond))

/-- A range of digits, in any of its forms. -/
theorem hashMatch_range
    {lead separator first second : JsString}
    (isLead : lead ∈ [units "L", units "#L"])
    (isSeparator : separator ∈ [units "-", units "-L"])
    (areDigits : AreDigits first)
    (alsoDigits : AreDigits second) :
    hashMatch (trim (lead ++ (first ++ (separator ++ second)))) =
      some (first, some second) := by
  have digits : ∀ unit ∈ first ++ second, isDigitUnit unit = true := by
    intro unit listed
    rcases List.mem_append.mp listed with isFirst | isSecond
    · exact areDigits.digits unit isFirst
    · exact alsoDigits.digits unit isSecond
  rw [trim_fragment isLead (List.mem_cons_of_mem _ isSeparator) _ _ digits,
    hashMatch_append isLead, boundsMatch_range areDigits alsoDigits isSeparator]

/-- A range means the same from either end. -/
theorem parseLineHash_reversed
    {lead separator first second : JsString}
    (isLead : lead ∈ [units "L", units "#L"])
    (isSeparator : separator ∈ [units "-", units "-L"])
    (areDigits : AreDigits first)
    (alsoDigits : AreDigits second) :
    parseLineHash (lead ++ (first ++ (separator ++ second))) =
      parseLineHash (lead ++ (second ++ (separator ++ first))) := by
  have forward := hashMatch_range isLead isSeparator areDigits alsoDigits
  have backward := hashMatch_range isLead isSeparator alsoDigits areDigits
  unfold parseLineHash
  simp only [forward, backward, Option.elim_some]
  cases toNumber first with
  | none =>
      cases toNumber second with
      | none => rfl
      | some _ => rfl
  | some first =>
      cases toNumber second with
      | none => rfl
      | some second =>
          simp only [or_comm (a := first < 1), min_comm first, max_comm first]

/-- A range of safe integers is read back. -/
theorem parseLineHash_formatLineHash
    {range : LineRange}
    (first : 1 ≤ range.start)
    (ordered : range.start ≤ range.stop)
    (safe : range.stop ≤ maxSafeInteger) :
    parseLineHash (formatLineHash range) = some range := by
  have isLead : units "#L" ∈ [units "L", units "#L"] := by decide
  have start := toNumber_decimalUnits (ordered.trans safe)
  have stop := toNumber_decimalUnits safe
  unfold formatLineHash
  split
  case isTrue single =>
    have digits := isDigitUnit_decimalUnits range.start
    have noSeparator : ([] : JsString) ∈ [[], units "-", units "-L"] := by decide
    have trimmed := trim_fragment isLead noSeparator (decimalUnits range.start) []
      (by simpa using digits)
    simp only [List.append_nil] at trimmed
    have matched := hashMatch_append isLead (decimalUnits range.start)
    rw [boundsMatch_line (areDigits_decimalUnits _)] at matched
    unfold parseLineHash
    simp only [trimmed, matched, Option.elim_none, start, or_self,
      if_neg (not_lt.mpr first), min_self, max_self]
    cases range
    exact congrArg (some ∘ LineRange.mk _) single
  case isFalse =>
    have isSeparator : units "-L" ∈ [units "-", units "-L"] := by decide
    have matched := hashMatch_range isLead isSeparator
      (areDigits_decimalUnits range.start) (areDigits_decimalUnits range.stop)
    rw [List.append_assoc]
    unfold parseLineHash
    simp only [matched, Option.elim_some, start, stop, min_eq_left ordered,
      max_eq_right ordered]
    exact if_neg (by omega)

/-! ## The selection -/

/-- A range of lines that are there. -/
structure LineRange.Within (range : LineRange) (lineCount : Nat) : Prop where
  first : 1 ≤ range.start
  ordered : range.start ≤ range.stop
  last : range.stop ≤ lineCount

/-- What is read starts at a line and ends no earlier. -/
theorem ordered_of_parseLineHash
    {hash : JsString}
    {range : LineRange}
    (parsed : parseLineHash hash = some range) :
    1 ≤ range.start ∧ range.start ≤ range.stop := by
  unfold parseLineHash at parsed
  split at parsed
  · cases parsed
  · simp only at parsed
    split at parsed
    · split at parsed
      · cases parsed
      · cases parsed
        simp only [not_or, not_lt] at *
        exact ⟨le_min (by omega) (by omega), min_le_max⟩
    · cases parsed

/-- What is cut down to the lines is within them. -/
theorem within_clampRange
    {range : Option LineRange}
    {lineCount : Nat}
    (ordered : ∀ given ∈ range, 1 ≤ given.start ∧ given.start ≤ given.stop) :
    ∀ clamped ∈ clampRange range lineCount, clamped.Within lineCount := by
  intro clamped isClamped
  cases range with
  | none => cases isClamped
  | some range =>
      obtain ⟨first, ordered⟩ := ordered range rfl
      simp only [clampRange] at isClamped
      split at isClamped
      · cases isClamped
      · rename_i reaches
        cases isClamped
        exact ⟨first, le_min ordered (not_lt.mp reaches), min_le_right _ _⟩

/-- A range within the lines is not cut down. -/
theorem LineRange.Within.clampRange_eq
    {range : LineRange}
    {lineCount : Nat}
    (within : range.Within lineCount) :
    clampRange (some range) lineCount = some range := by
  obtain ⟨first, ordered, last⟩ := within
  simp only [clampRange, min_eq_left last]
  exact if_neg (by omega)

theorem selectLine_contains
    (current : Option LineRange)
    (line : Nat)
    (extend : Bool) :
    (selectLine current line extend).start ≤ line ∧
      line ≤ (selectLine current line extend).stop := by
  unfold selectLine
  split
  · exact ⟨min_le_right _ _, le_max_right _ _⟩
  · exact ⟨le_rfl, le_rfl⟩

/-- A click on a line keeps the selection within the lines. -/
theorem within_selectLine
    {current : Option LineRange}
    {lineCount line : Nat}
    (within : ∀ range ∈ current, range.Within lineCount)
    (first : 1 ≤ line)
    (last : line ≤ lineCount)
    (extend : Bool) :
    (selectLine current line extend).Within lineCount := by
  unfold selectLine
  split
  case h_1 current =>
    have anchor := within current rfl
    have reaches := anchor.ordered.trans anchor.last
    exact ⟨le_min anchor.first first, min_le_max, max_le reaches last⟩
  case h_2 => exact ⟨first, le_rfl, last⟩

namespace Page

variable (page : Page)

theorem lineCount_safe : page.lineCount ≤ maxSafeInteger := by
  unfold lineCount
  split
  · exact Nat.zero_le _
  · exact Nat.zero_le _
  · rename_i text _ isContent
    exact (page.lines_lt text isContent).le.trans (by decide)

/-- Every number that the length of an array can be is the line count of some
page. -/
theorem exists_lineCount {lineCount : Nat} (fits : lineCount < 2 ^ 32) :
    ∃ page : Page, page.lineCount = lineCount := by
  have lines : ∀ breaks, ((0x61 :: List.replicate breaks 0x0A : JsString).splitOn
      0x0A).length = breaks + 1 := by
    intro breaks
    rw [List.splitOn_cons_eq_if_modifyHead, if_neg (by decide), List.length_modifyHead]
    induction breaks with
    | zero => rfl
    | succ breaks inductionHypothesis =>
        rw [List.replicate_succ, List.splitOn_cons_eq_if_modifyHead,
          if_pos (by decide), List.length_cons, inductionHypothesis]
  cases lineCount with
  | zero => exact ⟨⟨none, nofun⟩, rfl⟩
  | succ breaks =>
      refine ⟨⟨some (0x61 :: List.replicate breaks 0x0A), ?_⟩, lines breaks⟩
      rintro _ ⟨⟩
      rw [lines]
      exact fits

theorem selection_within (fragment : JsString) :
    ∀ range ∈ page.selection fragment, range.Within page.lineCount :=
  within_clampRange fun _ => ordered_of_parseLineHash

/-- The fragment of a range within the lines selects it. -/
theorem selection_formatLineHash
    {range : LineRange}
    (within : range.Within page.lineCount) :
    page.selection (formatLineHash range) = some range := by
  unfold selection
  rw [parseLineHash_formatLineHash within.first within.ordered
    (within.last.trans page.lineCount_safe), within.clampRange_eq]

/-- A click selects, by way of the address, what it asks for. -/
theorem selection_onSelectLine (fragment : JsString) (click : page.Click) :
    page.selection (page.onSelectLine fragment click) =
      some (selectLine (page.selection fragment) click.line click.shift) :=
  page.selection_formatLineHash
    (within_selectLine (page.selection_within fragment) click.first click.last _)

/-- A run of clicks selects what it would select without the address bar. -/
theorem selection_run (fragment : JsString) (clicks : List page.Click) :
    page.selection (Runs.run page.onSelectLine fragment clicks) =
      Runs.run (fun current (click : page.Click) =>
        some (selectLine current click.line click.shift))
        (page.selection fragment) clicks := by
  induction clicks generalizing fragment with
  | nil => rfl
  | cons click clicks inductionHypothesis =>
      rw [Runs.run_cons, Runs.run_cons, inductionHypothesis, selection_onSelectLine]

/-- On every page, from every fragment and after every run of clicks: the
selection is empty or within the lines, it is the one that the clicks alone would
leave, the next click selects a range that holds its line, and the fragment of
the address and of a copied link selects what is shown.  A range of safe integers
is read back from its fragment, and a range means the same from either end. -/
theorem selection_denoted (fragment : JsString) (clicks : List page.Click) :
    let current := Runs.run page.onSelectLine fragment clicks
    (∀ range ∈ page.selection current, range.Within page.lineCount ∧
        page.selection (formatLineHash range) = some range) ∧
      page.selection current =
        Runs.run (fun selected (click : page.Click) =>
          some (selectLine selected click.line click.shift))
          (page.selection fragment) clicks ∧
      (∀ click : page.Click, ∃ range : LineRange,
        range = selectLine (page.selection current) click.line click.shift ∧
        range.start ≤ click.line ∧ click.line ≤ range.stop ∧
        page.onSelectLine current click = formatLineHash range ∧
        page.selection (page.onSelectLine current click) = some range) ∧
      (∀ range : LineRange, 1 ≤ range.start → range.start ≤ range.stop →
        range.stop ≤ maxSafeInteger →
          parseLineHash (formatLineHash range) = some range) ∧
      ∀ lead ∈ [units "L", units "#L"], ∀ separator ∈ [units "-", units "-L"],
        ∀ first second, AreDigits first → AreDigits second →
          parseLineHash (lead ++ (first ++ (separator ++ second))) =
            parseLineHash (lead ++ (second ++ (separator ++ first))) := by
  intro current
  refine ⟨?_, page.selection_run fragment clicks, ?_, ?_, ?_⟩
  · intro range selected
    have within := page.selection_within current range selected
    exact ⟨within, page.selection_formatLineHash within⟩
  · intro click
    obtain ⟨before, after⟩ := selectLine_contains (page.selection current)
      click.line click.shift
    exact ⟨_, rfl, before, after, rfl, page.selection_onSelectLine current click⟩
  · exact fun range => parseLineHash_formatLineHash
  · intro lead isLead separator isSeparator first second areDigits alsoDigits
    exact parseLineHash_reversed isLead isSeparator areDigits alsoDigits

end Page
end Web
end Haste
