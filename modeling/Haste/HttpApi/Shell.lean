import Haste.HttpApi.Head

/-!
# The page of a paste

The built page is split once at the markers of its head, and what stands between
them is replaced for every paste.  A page whose markers are missing or in the wrong
order is kept whole.
-/

namespace Haste
namespace HttpApi

open Go Occurrence

/-- `headStart`. -/
def headStart : Bytes := ascii "<!--head:start-->"

/-- `headEnd`. -/
def headEnd : Bytes := ascii "<!--head:end-->"

/-- `shell`, whose last slice may be nil. -/
structure Shell where
  before : Bytes
  defaultHead : Bytes
  after : Option Bytes

/-- `text[low:high]`, or none where it is out of range. -/
def slice (text : Bytes) (low high : Nat) : Option Bytes :=
  if low ≤ high ∧ high ≤ text.length then some ((text.take high).drop low)
  else none

theorem slice_append (before middle after : Bytes) :
    slice (before ++ middle ++ after) before.length (before ++ middle).length =
      some middle := by
  rw [slice, if_pos, List.take_left, List.drop_left]
  simp only [List.length_append]
  omega

/-- `newShell`, or none where a slice is out of range. -/
def newShell (index : Bytes) : Option Shell :=
  match indexOf headStart index, indexOf headEnd index with
  | some start, some stop =>
      if stop < start then some { before := index, defaultHead := [], after := none }
      else do
        let before ← slice index 0 (start + headStart.length)
        let defaultHead ← slice index (start + headStart.length) stop
        let after ← slice index stop index.length
        return { before, defaultHead, after := some after }
  | _, _ => some { before := index, defaultHead := [], after := none }

namespace Shell

/-- `document`. -/
def document (shell : Shell) (head : Bytes) : Bytes :=
  shell.before ++ head ++ shell.after.getD []

/-- `render`, called at this instant. -/
def render (shell : Shell) (paste : Option Store.Paste) (now : Int) : Bytes :=
  match paste, shell.after with
  | some paste, some _ => shell.document (pasteHead paste now)
  | _, _ => shell.document shell.defaultHead

end Shell

/-! ## The two markers -/

/-- A document around its first two markers. -/
structure Splits (index before head after : Bytes) : Prop where
  text : index = before ++ headStart ++ head ++ headEnd ++ after
  firstStart : ∀ earlier < before.length, ¬headStart <+: index.drop earlier
  firstEnd : ∀ earlier < (before ++ headStart ++ head).length,
    ¬headEnd <+: index.drop earlier

namespace Splits

variable {index before head after : Bytes}

theorem indexOf_headStart (splits : Splits index before head after) :
    indexOf headStart index = some before.length := by
  refine indexOf_eq_some_iff.mpr ⟨?_, ?_, splits.firstStart⟩
  · rw [splits.text]
    simp only [List.length_append]
    omega
  · rw [splits.text]
    simp only [List.append_assoc, List.drop_left]
    exact List.prefix_append _ _

theorem indexOf_headEnd (splits : Splits index before head after) :
    indexOf headEnd index = some (before ++ headStart ++ head).length := by
  refine indexOf_eq_some_iff.mpr ⟨?_, ?_, splits.firstEnd⟩
  · rw [splits.text]
    simp only [List.length_append]
    omega
  · rw [splits.text, List.append_assoc _ headEnd, List.drop_left]
    exact List.prefix_append _ _

/-- Another head without markers is between the same markers. -/
theorem replace
    (splits : Splits index before head after)
    {other : Bytes}
    (noStart : Excludes headStart other)
    (noEnd : Excludes headEnd other) :
    Splits (before ++ headStart ++ other ++ headEnd ++ after) before other after := by
  have regroup : ∀ middle, before ++ headStart ++ middle ++ headEnd ++ after =
      before ++ headStart ++ middle ++ (headEnd ++ after) :=
    fun middle => List.append_assoc _ _ _
  have outside : ∀ part middle earlier,
      part <+: (before ++ headStart ++ other ++ headEnd ++ after).drop earlier →
      earlier + part.length ≤ (before ++ headStart).length →
      part <+: (before ++ headStart ++ middle ++ headEnd ++ after).drop earlier := by
    intro part middle earlier occurs within
    rw [regroup, List.append_assoc (before ++ headStart)] at occurs ⊢
    exact prefix_drop_append occurs within _
  refine ⟨rfl, fun earlier early occurs => ?_, fun earlier early occurs => ?_⟩
  · have place := noStart.before_or_after (regroup other ▸ occurs)
    have within : earlier + headStart.length ≤ (before ++ headStart).length := by
      rw [List.length_append] at place ⊢
      omega
    exact splits.firstStart earlier early
      (splits.text ▸ outside headStart head earlier occurs within)
  · have place := noEnd.before_or_after (regroup other ▸ occurs)
    rw [← List.length_append] at place
    have within : earlier + headEnd.length ≤ (before ++ headStart).length := by
      omega
    refine splits.firstEnd earlier ?_
      (splits.text ▸ outside headEnd head earlier occurs within)
    rw [List.length_append]
    have some : 0 < headEnd.length := by decide
    omega

/-- Markers that occur first in this order split the document. -/
theorem of_indexOf
    {start stop : Nat}
    (foundStart : indexOf headStart index = some start)
    (foundEnd : indexOf headEnd index = some stop)
    (order : start ≤ stop) :
    start + headStart.length ≤ stop ∧
      Splits index (index.take start)
        ((index.take stop).drop (start + headStart.length))
        (index.drop (stop + headEnd.length)) := by
  obtain ⟨startWithin, startOccurs, noStart⟩ := indexOf_eq_some_iff.mp foundStart
  obtain ⟨endWithin, endOccurs, noEnd⟩ := indexOf_eq_some_iff.mp foundEnd
  -- The end marker does not begin inside of the start marker.
  have apart : Disjoint headStart headEnd := by decide
  have room := apart.add_length_le startOccurs endOccurs order
  have startText : index.take (start + headStart.length) =
      index.take start ++ headStart := by
    obtain ⟨rest, same⟩ := startOccurs
    rw [List.take_add, ← same, List.take_left]
  have headText : index.take start ++ headStart ++
      (index.take stop).drop (start + headStart.length) = index.take stop := by
    rw [← startText, ← Nat.min_eq_left room, ← List.take_take, Nat.min_eq_left room]
    exact List.take_append_drop _ _
  refine ⟨room, ?_, ?_, ?_⟩
  · rw [headText]
    exact (take_append_drop_of_occurs endOccurs).symm
  · rwa [List.length_take, Nat.min_eq_left startWithin]
  · rwa [headText, List.length_take, Nat.min_eq_left endWithin]

end Splits

section

variable {index before head after : Bytes}

/-- A document with its markers in order is split at them. -/
theorem newShell_of_splits (splits : Splits index before head after) :
    newShell index = some {
      before := before ++ headStart
      defaultHead := head
      after := some (headEnd ++ after) } := by
  have order : ¬(before ++ headStart ++ head).length < before.length := by
    simp only [List.length_append]
    omega
  have first : slice index 0 (before.length + headStart.length) =
      some (before ++ headStart) := by
    rw [splits.text, ← List.length_append, List.append_assoc, List.append_assoc]
    exact slice_append [] (before ++ headStart) _
  have second : slice index (before.length + headStart.length)
      (before ++ headStart ++ head).length = some head := by
    rw [splits.text, ← List.length_append, List.append_assoc _ headEnd]
    exact slice_append (before ++ headStart) head _
  have third : slice index (before ++ headStart ++ head).length index.length =
      some (headEnd ++ after) := by
    rw [splits.text, List.append_assoc _ headEnd]
    simpa using slice_append (before ++ headStart ++ head) (headEnd ++ after) []
  simp only [newShell, splits.indexOf_headStart, splits.indexOf_headEnd,
    if_neg order, first, second, third]
  rfl

/-- Any other document is kept whole. -/
theorem newShell_of_not_splits
    (unsplit : ¬∃ before head after, Splits index before head after) :
    newShell index = some { before := index, defaultHead := [], after := none } := by
  unfold newShell
  split
  · rename_i start stop foundStart foundEnd
    rw [if_pos]
    by_contra order
    exact unsplit ⟨_, _, _, (Splits.of_indexOf foundStart foundEnd (by omega)).2⟩
  · rfl

end

/-! ## Pages -/

section

variable (paste : Store.Paste) (now : Int)

theorem pasteHead_apart : Apart 0x3C 0x21 (pasteHead paste now) := by
  rw [pasteHead_eq]
  exact headAround_apart (escapeString_plain _) (escapeString_plain _)

/-- No head holds a marker, nor can it complete one. -/
theorem pasteHead_excludes
    {marker : Bytes}
    (starts : [0x3C, 0x21] <+: marker)
    (noBreak : 0x0A ∉ marker)
    (noSpace : 0x20 ∉ marker) :
    Excludes marker (pasteHead paste now) := by
  have apart := (pasteHead_apart paste now).not_isInfix starts
  rw [pasteHead_eq] at apart ⊢
  exact ⟨⟨0x0A, headAround_ends.1, noBreak⟩, ⟨0x20, headAround_ends.2, noSpace⟩,
    apart⟩

theorem pasteHead_excludes_headStart : Excludes headStart (pasteHead paste now) :=
  pasteHead_excludes paste now (by decide) (by decide) (by decide)

theorem pasteHead_excludes_headEnd : Excludes headEnd (pasteHead paste now) :=
  pasteHead_excludes paste now (by decide) (by decide) (by decide)

/-- What a preview says of a paste without a title: its language and its size. -/
def generated (paste : Store.Paste) : Bytes :=
  languageLabel paste.language ++ utf8 " · " ++ thousands paste.chars ++
    utf8 " 字元"

/-- A paste is shown as text: its texts hold no markup and are read back as the
title or what is said in its place, and as the description; and it adds no tag, no
attribute and no marker. -/
structure ShowsText (entities : Entities) : Prop where
  texts : ∃ title content, pasteHead paste now = headAround title content ∧
    (∀ byte ∈ title ++ content, isMarkup byte = false) ∧
    unescapeString entities title =
      (if paste.title ≠ [] then paste.title else generated paste) ∧
    unescapeString entities (title ++ utf8 " · " ++ product) =
      (if paste.title ≠ [] then paste.title else generated paste) ++
        utf8 " · " ++ product ∧
    unescapeString entities content = utf8 "檢視這則 " ++ generated paste ++
      if remainingAt paste now ≠ [] then
        utf8 "，" ++ remainingAt paste now ++ utf8 "後刪除"
      else []
  tags : outline .text (pasteHead paste now) = outline .text (headAround [] [])
  markers : ¬headStart <:+: pasteHead paste now ∧ ¬headEnd <:+: pasteHead paste now

/-- Every paste is shown as text. -/
theorem showsText (entities : Entities) : ShowsText paste now entities where
  texts := by
    have suffix : utf8 " · " ++ product = escapeString (utf8 " · " ++ product) := by
      decide
    have isHeadline : headline paste =
        if paste.title ≠ [] then paste.title else generated paste := by
      rw [headline, summary_eq]
      rfl
    have isDescription : description paste now =
        utf8 "檢視這則 " ++ generated paste ++
          if remainingAt paste now ≠ [] then
            utf8 "，" ++ remainingAt paste now ++ utf8 "後刪除"
          else [] := by
      rw [description, summary_eq]
      rfl
    rw [← isHeadline, ← isDescription]
    refine ⟨_, _, pasteHead_eq paste now, ?_, ?_, ?_, ?_⟩
    · intro byte written
      rcases List.mem_append.mp written with inTitle | inContent
      · exact escapeString_plain _ byte inTitle
      · exact escapeString_plain _ byte inContent
    · exact unescapeString_escapeString entities _
    · rw [List.append_assoc, suffix, escapeString, escapeString,
        ← List.flatMap_append, ← escapeString, unescapeString_escapeString,
        List.append_assoc]
    · exact unescapeString_escapeString entities _
  tags := by
    rw [pasteHead_eq]
    exact (headAround_alike (escapeString_plain _) (escapeString_plain _)).outline_eq
  markers := ⟨(pasteHead_excludes_headStart paste now).inside,
    (pasteHead_excludes_headEnd paste now).inside⟩

end

/-- **The page of a paste.**  Every document is split without a slice out of range
and is served as it is where there is no paste.  For a paste, whatever its title
and its language are, only what stands between the first two markers is replaced,
if these are in order; it is shown as text, and the markers stay where they are. -/
theorem page_replaces_head (entities : Entities) (index : Bytes) :
    ∃ shell, newShell index = some shell ∧
      (∀ now, shell.render none now = index) ∧
      ∀ paste now, ShowsText paste now entities ∧
        ((∃ before head after, Splits index before head after ∧
          Splits (shell.render (some paste) now) before (pasteHead paste now) after) ∨
        ((¬∃ before head after, Splits index before head after) ∧
          shell.render (some paste) now = index)) := by
  by_cases split : ∃ before head after, Splits index before head after
  · obtain ⟨before, head, after, splits⟩ := split
    refine ⟨_, newShell_of_splits splits, fun now => ?_, fun paste now => ?_⟩
    · rw [splits.text]
      simp [Shell.render, Shell.document]
    · refine ⟨showsText paste now entities, .inl ⟨before, head, after, splits, ?_⟩⟩
      have replaced := splits.replace (pasteHead_excludes_headStart paste now)
        (pasteHead_excludes_headEnd paste now)
      simpa [Shell.render, Shell.document] using replaced
  · refine ⟨_, newShell_of_not_splits split, fun now => ?_, fun paste now => ?_⟩
    · simp [Shell.render, Shell.document]
    · refine ⟨showsText paste now entities, .inr ⟨split, ?_⟩⟩
      simp [Shell.render, Shell.document]

end HttpApi
end Haste
