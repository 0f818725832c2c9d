import Haste.Go.Float
import Haste.Go.Format
import Haste.Go.Html
import Haste.HttpApi.Read

/-!
# The head of a paste's page

A link preview is told the title or a summary, the language, the size and the
lifetime that is left.  All of this goes into the page as escaped text, so the
tags, the attributes and the markers of the head are the same for every paste.
-/

namespace Haste
namespace HttpApi

open Go Occurrence

/-- `Product`. -/
def product : Bytes := ascii "Haste"

/-- `languageLabels`. -/
def languageLabels : List (String × String) :=
  [("cpp", "C++"), ("csharp", "C#"), ("fsharp", "F#"),
    ("objective-c", "Objective-C"), ("javascript", "JavaScript"),
    ("typescript", "TypeScript"), ("jsx", "JSX"), ("tsx", "TSX"),
    ("php", "PHP"), ("sql", "SQL"), ("html", "HTML"), ("css", "CSS"),
    ("scss", "SCSS"), ("json", "JSON"), ("jsonc", "JSON"), ("json5", "JSON5"),
    ("yaml", "YAML"), ("toml", "TOML"), ("ini", "INI"), ("xml", "XML"),
    ("csv", "CSV"), ("graphql", "GraphQL"), ("powershell", "PowerShell"),
    ("docker", "Dockerfile"), ("make", "Makefile"), ("cmake", "CMake"),
    ("latex", "LaTeX"), ("ocaml", "OCaml"), ("proto", "Protobuf"),
    ("hcl", "HCL"), ("http", "HTTP"), ("wasm", "WebAssembly"),
    ("dotenv", "dotenv"), ("text", "純文字"), ("log", "Log"), ("diff", "Diff")]

/-- `languageLabel`, of a stored language, whose first byte is ASCII. -/
def languageLabel (language : Bytes) : Bytes :=
  if language = [] then utf8 "純文字"
  else match languageLabels.find? fun entry => ascii entry.1 == language with
    | some entry => utf8 entry.2
    | none => toUpper (language.take 1) ++ language.drop 1

/-- The groups of three that the loop of `thousands` takes. -/
def threes : Bytes → List Bytes
  | first :: second :: third :: rest => [first, second, third] :: threes rest
  | _ => []

/-- `thousands`. -/
def thousands (n : Int) : Bytes :=
  let digits := number n
  if digits.length ≤ 3 then digits
  else
    let lead := digits.length % 3
    (threes (digits.drop lead)).foldl
      (fun written group =>
        if written = [] then group else written ++ ascii "," ++ group)
      (digits.take lead)

/-- The body of `remainingAt`, where every fraction is rounded in this way.  The sum
with half a day wraps around at 64 bits. -/
def remainingBy (round : ℚ → ℚ) (paste : Store.Paste) (now : Int) : Bytes :=
  match paste.expiresAt with
  | none => []
  | some expiresAt =>
      let left := timeSub expiresAt now
      if left ≤ 0 then []
      else
        let minutes := truncate (durationBy round minute (durationRound left minute))
        if minutes < 60 then number (max minutes 1) ++ utf8 " 分鐘"
        else
          let hours := truncate (durationBy round hour (durationRound left hour))
          if hours < 24 then number hours ++ utf8 " 小時"
          else
            let shifted := (left + 12 * hour).bmod (2 ^ 64)
            number (truncate (round (durationBy round hour shifted / 24))) ++
              utf8 " 天"

/-- `remainingAt`: the code computes with `float64`. -/
def remainingAt (paste : Store.Paste) (now : Int) : Bytes :=
  remainingBy float64 paste now

/-- The generated summary. -/
def summary (paste : Store.Paste) : Bytes :=
  sprintf (utf8 "%s · %s 字元") [languageLabel paste.language, thousands paste.chars]

/-- The summary is the language and the size. -/
theorem summary_eq (paste : Store.Paste) :
    summary paste = languageLabel paste.language ++ utf8 " · " ++
      thousands paste.chars ++ utf8 " 字元" := by
  have format : utf8 "%s · %s 字元" =
      [] ++ (ascii "%s" ++ (utf8 " · " ++ (ascii "%s" ++ utf8 " 字元"))) := by
    decide
  exact sprintf_two format (by decide) (by decide) (by decide) _ _

/-- What names the paste: its title or the generated summary. -/
def headline (paste : Store.Paste) : Bytes :=
  if paste.title ≠ [] then paste.title else summary paste

/-- The description, with the lifetime that is left. -/
def description (paste : Store.Paste) (now : Int) : Bytes :=
  let left := remainingAt paste now
  utf8 "檢視這則 " ++ summary paste ++
    if left ≠ [] then utf8 "，" ++ left ++ utf8 "後刪除" else []

/-- The tags, each with the text it holds. -/
def tags (headline description : Bytes) : List (Bytes × Bytes) :=
  [(ascii "<meta name=\"description\" content=%q />", description),
    (ascii "<meta property=\"og:title\" content=%q />", headline),
    (ascii "<meta property=\"og:description\" content=%q />", description),
    (ascii "<meta name=\"twitter:title\" content=%q />", headline),
    (ascii "<meta name=\"twitter:description\" content=%q />", description)]

/-- `pasteHead`, called at this instant. -/
def pasteHead (paste : Store.Paste) (now : Int) : Bytes :=
  sprintf (utf8 "\n    <title>%s · %s</title>\n")
      [escapeString (headline paste), product] ++
    ((tags (headline paste) (description paste now)).flatMap fun tag =>
      ascii "    " ++
        sprintf (replaceOne tag.1 (ascii "%q") (ascii "\"%s\""))
          [escapeString tag.2] ++
        ascii "\n") ++
    ascii "    "

example : thousands 1234567 = ascii "1,234,567" := by decide

/-! ## The head as it is written -/

/-- A tag that holds this text. -/
def metaTag (named : String) (text : Bytes) : Bytes :=
  ascii "    <meta " ++ ascii named ++ ascii " content=\"" ++ text ++
    ascii "\" />\n"

/-- A format of `tags` writes the tag. -/
theorem sprintf_tag
    (format : Bytes)
    (named : String)
    (isFormat : replaceOne format (ascii "%q") (ascii "\"%s\"") =
      ascii "<meta " ++ ascii named ++ ascii " content=\"" ++
        (ascii "%s" ++ ascii "\" />"))
    (noVerb : 0x25 ∉ ascii "<meta " ++ ascii named ++ ascii " content=\"")
    (text : Bytes) :
    ascii "    " ++
        sprintf (replaceOne format (ascii "%q") (ascii "\"%s\"")) [text] ++
      ascii "\n" = metaTag named text := by
  have start : ascii "    <meta " = ascii "    " ++ ascii "<meta " := by decide
  have stop : ascii "\" />\n" = ascii "\" />" ++ ascii "\n" := by decide
  rw [sprintf_one isFormat noVerb (by decide), metaTag, start, stop]
  simp only [List.append_assoc]

/-- The head around the texts of its headline and its description. -/
def headAround (headline description : Bytes) : Bytes :=
  ascii "\n    <title>" ++ headline ++ utf8 " · " ++ product ++
    ascii "</title>\n" ++
    metaTag "name=\"description\"" description ++
    metaTag "property=\"og:title\"" headline ++
    metaTag "property=\"og:description\"" description ++
    metaTag "name=\"twitter:title\"" headline ++
    metaTag "name=\"twitter:description\"" description ++ ascii "    "

/-- Nothing but these two texts depends on the paste. -/
theorem pasteHead_eq (paste : Store.Paste) (now : Int) :
    pasteHead paste now = headAround (escapeString (headline paste))
      (escapeString (description paste now)) := by
  have title : ∀ text, sprintf (utf8 "\n    <title>%s · %s</title>\n")
      [text, product] = ascii "\n    <title>" ++ text ++ utf8 " · " ++ product ++
        ascii "</title>\n" :=
    fun text => sprintf_two (by decide) (by decide) (by decide) (by decide) text
      product
  simp only [pasteHead, tags, title, List.flatMap_cons, List.flatMap_nil,
    sprintf_tag (ascii "<meta name=\"description\" content=%q />")
      "name=\"description\"" (by decide) (by decide),
    sprintf_tag (ascii "<meta property=\"og:title\" content=%q />")
      "property=\"og:title\"" (by decide) (by decide),
    sprintf_tag (ascii "<meta property=\"og:description\" content=%q />")
      "property=\"og:description\"" (by decide) (by decide),
    sprintf_tag (ascii "<meta name=\"twitter:title\" content=%q />")
      "name=\"twitter:title\"" (by decide) (by decide),
    sprintf_tag (ascii "<meta name=\"twitter:description\" content=%q />")
      "name=\"twitter:description\"" (by decide) (by decide)]
  simp only [headAround, List.append_assoc, List.append_nil]

/-! ## Escaped texts in the head -/

section

variable {text headline description : Bytes}

theorem metaTag_alike
    {named : String}
    (opens : (ascii "    <meta " ++ ascii named ++ ascii " content=\"").foldl
      Place.next .text = .double)
    (plain : ∀ byte ∈ text, isMarkup byte = false) :
    Alike (metaTag named text) (metaTag named []) :=
  Alike.value opens (by decide) plain

/-- The tags and their attributes do not depend on these texts. -/
theorem headAround_alike
    (plainHeadline : ∀ byte ∈ headline, isMarkup byte = false)
    (plainDescription : ∀ byte ∈ description, isMarkup byte = false) :
    Alike (headAround headline description) (headAround [] []) := by
  unfold headAround
  refine .append (.append (.append (.append (.append (.append ?_ ?_) ?_) ?_) ?_) ?_)
    (.of_ends (by decide))
  · refine .append (.append (.append (.append ?_ (.of_plain plainHeadline)) ?_) ?_) ?_
    · exact .of_ends (by decide)
    · exact .of_ends (by decide)
    · exact .of_ends (by decide)
    · exact .of_ends (by decide)
  · exact metaTag_alike (by decide) plainDescription
  · exact metaTag_alike (by decide) plainHeadline
  · exact metaTag_alike (by decide) plainDescription
  · exact metaTag_alike (by decide) plainHeadline
  · exact metaTag_alike (by decide) plainDescription

theorem apart_of_plain
    (plain : ∀ byte ∈ text, isMarkup byte = false) :
    Apart 0x3C 0x21 text :=
  .of_not_mem fun listed => absurd (plain _ listed) (by decide)

theorem metaTag_apart
    {named : String}
    (opens : Apart 0x3C 0x21 (ascii "    <meta " ++ ascii named ++ ascii " content=\""))
    (plain : ∀ byte ∈ text, isMarkup byte = false) :
    Apart 0x3C 0x21 (metaTag named text) :=
  (opens.append (apart_of_plain plain)).append ⟨by decide, by decide⟩

/-- No declaration and no comment starts in the head. -/
theorem headAround_apart
    (plainHeadline : ∀ byte ∈ headline, isMarkup byte = false)
    (plainDescription : ∀ byte ∈ description, isMarkup byte = false) :
    Apart 0x3C 0x21 (headAround headline description) := by
  unfold headAround
  refine .append (.append (.append (.append (.append (.append ?_ ?_) ?_) ?_) ?_) ?_)
    ⟨by decide, by decide⟩
  · refine .append (.append (.append (.append ?_ (apart_of_plain plainHeadline)) ?_)
      ?_) ?_
    · exact ⟨by decide, by decide⟩
    · exact ⟨by decide, by decide⟩
    · exact ⟨by decide, by decide⟩
    · exact ⟨by decide, by decide⟩
  · exact metaTag_apart ⟨by decide, by decide⟩ plainDescription
  · exact metaTag_apart ⟨by decide, by decide⟩ plainHeadline
  · exact metaTag_apart ⟨by decide, by decide⟩ plainDescription
  · exact metaTag_apart ⟨by decide, by decide⟩ plainHeadline
  · exact metaTag_apart ⟨by decide, by decide⟩ plainDescription

/-- The head starts with a line break and ends with a space. -/
theorem headAround_ends :
    (headAround headline description).head? = some 0x0A ∧
      (headAround headline description).getLast? = some 0x20 := by
  constructor
  · rfl
  · rw [headAround, List.getLast?_append]
    rfl

end

end HttpApi
end Haste
