import Mathlib.Data.List.Nodup
import PluginAudit.Proofs.Maps
import PluginAudit.Proofs.ReadmeLines
import PluginAudit.Readme.Reader

/-!
Readmes in their canonical form, and what is read from them: the title, the headers, the short
description and the sections, as they have been written.
-/

namespace PluginAudit.Readme

open Text

/-- A text on one line, without white space around it. -/
structure Phrase where
  text : List Char
  trimmed : trim text = text
  oneLine : '\n' ∉ text

structure Caption extends Phrase where
  nonempty : text ≠ []

/-- Letters with blanks only between them. -/
structure HeaderKey where
  text : List Char
  chars : ∀ c ∈ text, isKeyChar c
  first : text.head?.any Char.isAlpha
  last : text.getLast?.any Char.isAlpha

/-- A line that is no heading, wherever a byte order mark is dropped. -/
structure BodyLine where
  text : List Char
  oneLine : '\n' ∉ text
  unmarked : text.head? ≠ some '\uFEFF'
  plain : isHeading text = false

structure Part where
  title : Caption
  body : List BodyLine

structure Manuscript where
  title : Caption
  headers : List (HeaderKey × Phrase)
  headed : headers ≠ []
  distinct : (headers.map fun h => asciiLower h.1.text).Nodup
  description : Caption
  short : description.text.length ≤ descriptionLimit
  unmarked : description.text.head? ≠ some '\uFEFF'
  plain : isHeading description.text = false
  parts : List Part

def Part.lines (p : Part) : List (List Char) :=
  headline 2 p.title.text :: p.body.map BodyLine.text

namespace Manuscript

def headerLines (m : Manuscript) : List (List Char) :=
  m.headers.map fun h => headerLine h.1.text h.2.text

/-- The lines from the short description on. -/
def bodyLines (m : Manuscript) : List (List Char) :=
  m.description.text :: [] :: m.parts.flatMap Part.lines

def lines (m : Manuscript) : List (List Char) :=
  headline 3 m.title.text :: (m.headerLines ++ [] :: m.bodyLines)

/-- The text of a readme, whose last line ends with a line feed if it is closed. -/
def source (m : Manuscript) (closed : Bool) : List Char :=
  joinWith ['\n'] (m.lines ++ if closed then [[]] else [])

/-- The headers with their names in small letters. -/
def entries (m : Manuscript) : List (String × String) :=
  m.headers.map fun h => (.ofList (asciiLower h.1.text), .ofList h.2.text)

end Manuscript

variable {m : Manuscript}

theorem getLast?_headline (marks : Nat) (text : List Char) :
    (headline (marks + 1) text).getLast? = some '=' := by
  simp [headline, List.getLast?_append, List.getLast?_cons, List.getLast?_replicate]

theorem dropReturn_headline (marks : Nat) (text : List Char) :
    dropReturn (headline (marks + 1) text) = headline (marks + 1) text :=
  dropReturn_of_last (by simp [getLast?_headline])

theorem newline_headline {marks : Nat} {text : List Char} (oneLine : '\n' ∉ text) :
    '\n' ∉ headline marks text := by
  simp [headline, List.mem_replicate, oneLine]

namespace HeaderKey

theorem exists_letter (k : HeaderKey) : ∃ c rest, k.text = c :: rest ∧ c.isAlpha := by
  have first := k.first
  cases written : k.text with
  | nil =>
    rw [written] at first
    cases first
  | cons c rest =>
    rw [written] at first
    exact ⟨c, rest, rfl, first⟩

theorem oneLine (k : HeaderKey) : '\n' ∉ k.text := fun member =>
  absurd (k.chars _ member) (by decide)

theorem line_cases (k : HeaderKey) (value : List Char) :
    ∃ c rest, headerLine k.text value = c :: rest ∧ c.isAlpha := by
  obtain ⟨c, rest, written, letter⟩ := k.exists_letter
  exact ⟨c, rest ++ ':' :: ' ' :: value, by rw [headerLine, written]; rfl, letter⟩

theorem dropReturn_line (k : HeaderKey) (value : Phrase) :
    dropReturn (headerLine k.text value.text) = headerLine k.text value.text := by
  refine dropReturn_of_last ?_
  have ending := last_ne_return value.trimmed
  have last : (headerLine k.text value.text).getLast? = some (value.text.getLast?.getD ' ') := by
    simp [headerLine, List.getLast?_append, List.getLast?_cons]
  rw [last]
  cases ends : value.text.getLast? with
  | none => decide
  | some c =>
    rw [ends] at ending
    exact ending

end HeaderKey

/-- Headers are read one after another into the map. -/
theorem readOpening_headers (headers : List (HeaderKey × Phrase)) (read : List (String × String))
    (rest : List (List Char)) :
    readOpening read ((headers.map fun h => headerLine h.1.text h.2.text) ++ rest) =
      readOpening ((headers.map fun h =>
        (String.ofList (asciiLower h.1.text), String.ofList h.2.text)).foldl
          (fun m e => Entries.put e.1 e.2 m) read) rest := by
  induction headers generalizing read with
  | nil => rfl
  | cons h others ih =>
    obtain ⟨c, more, written, letter⟩ := h.1.line_cases h.2.text
    have blank : allBlank (headerLine h.1.text h.2.text) = false := by
      rw [written]
      exact allBlank_letter letter more
    have heading : isHeading (headerLine h.1.text h.2.text) = false := by
      rw [written]
      exact isHeading_letter letter more
    have header := headerOf?_headerLine h.1.chars h.1.first h.1.last h.2.trimmed
    simp only [List.map_cons, List.cons_append, readOpening, blank, heading, header,
      Bool.false_eq_true, if_false, List.foldl_cons, ih]

theorem Caption.allBlank (c : Caption) : Text.allBlank c.text = false := by
  have trimmed := c.trimmed
  obtain ⟨d, rest, written⟩ := List.exists_cons_of_ne_nil c.nonempty
  rw [written] at trimmed ⊢
  simp [Text.allBlank, head_of_trimmed trimmed]

/-- After headers and a blank line the description is one line, if a blank line follows. -/
theorem readOpening_description {headers : List (String × String)} (some : headers ≠ [])
    (rest : List (List Char)) :
    readOpening headers ([] :: m.description.text :: linesOfParts ([] :: rest)) =
      ⟨headers, [m.description.text], none, linesOfParts rest⟩ := by
  have blank := m.description.allBlank
  have kept : (m.description.text :: linesOfParts ([] :: rest)).dropWhile Text.allBlank =
      m.description.text :: linesOfParts ([] :: rest) :=
    List.dropWhile_cons_of_neg (Bool.eq_false_iff.mp blank)
  have paragraph : readParagraph headers [m.description.text] (linesOfParts ([] :: rest)) =
      ⟨headers, [m.description.text], none, linesOfParts rest⟩ := by
    cases rest with
    | nil => rfl
    | cons line others => rfl
  have nonempty : headers.isEmpty = false := List.isEmpty_eq_false_iff.mpr some
  have empty : Text.allBlank [] = true := rfl
  simp only [readOpening, empty, nonempty, readDescription, kept, m.plain, m.description.trimmed,
    paragraph]
  rfl

theorem sectionsFrom_titles (title : Option (List Char)) (words : Nat) (lines : List (List Char)) :
    (sectionsFrom title words lines).map Section.title =
      title.toList ++ (lines.filter isHeading).filterMap headingTitle? := by
  induction lines generalizing title words with
  | nil => cases title <;> rfl
  | cons line rest ih =>
    cases heading : isHeading line with
    | false => simp only [sectionsFrom, heading, List.filter_cons, ih, Bool.false_eq_true, if_false]
    | true =>
      have later := ih (headingTitle? line) 0
      cases title <;> cases found : headingTitle? line <;>
        simp_all [sectionsFrom, closeSection]

theorem filter_isHeading_linesOfParts {parts : List (List Char)}
    (whole : ∀ part ∈ parts, isHeading part = true → dropReturn part = part) :
    (linesOfParts parts).filter isHeading = parts.filter isHeading := by
  induction parts with
  | nil => rfl
  | cons part rest ih =>
    have others := ih fun q member => whole q (List.mem_cons_of_mem _ member)
    cases rest with
    | nil =>
      simp only [linesOfParts]
      split
      · rename_i empty
        rw [List.isEmpty_iff.mp empty]
        rfl
      · rfl
    | cons next more =>
      rw [linesOfParts, List.filter_cons, List.filter_cons, others, isHeading_dropReturn]
      split
      · rw [whole part List.mem_cons_self (by assumption)]
      · rfl

theorem dropWhile_unmarked {line part : List Char} (begins : line <+: part)
    (unmarked : part.head? ≠ some '\uFEFF') : line.dropWhile (· == '\uFEFF') = line := by
  cases line with
  | nil => rfl
  | cons c rest =>
    obtain ⟨more, rfl⟩ := begins
    have other : c ≠ '\uFEFF' := by simpa using unmarked
    exact List.dropWhile_cons_of_neg (by simpa using other)

namespace Manuscript

/-- What follows the last line. -/
def ending (closed : Bool) : List (List Char) := if closed then [[]] else []

theorem forall_lines {P : List Char → Prop} (closed : Bool) (blank : P [])
    (title : P (headline 3 m.title.text))
    (headers : ∀ h : HeaderKey × Phrase, P (headerLine h.1.text h.2.text))
    (description : P m.description.text) (headings : ∀ c : Caption, P (headline 2 c.text))
    (body : ∀ b : BodyLine, P b.text) : ∀ line ∈ m.lines ++ ending closed, P line := by
  intro line member
  simp only [lines, headerLines, bodyLines, ending, List.mem_append, List.mem_cons, List.mem_map,
    List.mem_flatMap, Part.lines] at member
  rcases member with (rfl | ⟨h, -, rfl⟩ | rfl | rfl | rfl | ⟨p, -, rfl | ⟨b, -, rfl⟩⟩) | last
  · exact title
  · exact headers h
  · exact blank
  · exact description
  · exact blank
  · exact headings p.title
  · exact body b
  · split at last
    · rw [List.mem_singleton.mp last]
      exact blank
    · cases last

theorem newline_lines (m : Manuscript) (closed : Bool) :
    ∀ line ∈ m.lines ++ ending closed, '\n' ∉ line := by
  refine forall_lines closed List.not_mem_nil (newline_headline m.title.oneLine) (fun h => ?_)
    m.description.oneLine (fun c => newline_headline c.oneLine) fun b => b.oneLine
  simp [headerLine, h.1.oneLine, h.2.oneLine]

theorem unmarked_lines (m : Manuscript) (closed : Bool) :
    ∀ line ∈ m.lines ++ ending closed, line.head? ≠ some '\uFEFF' := by
  refine forall_lines closed (by decide) (by simp [headline]) (fun h => ?_) m.unmarked
    (fun c => by simp [headline]) fun b => b.unmarked
  obtain ⟨c, rest, written, letter⟩ := h.1.line_cases h.2.text
  rw [written]
  simpa using ne_of_isAlpha letter (by decide)

theorem opening_kept (m : Manuscript) :
    ∀ line ∈ headline 3 m.title.text :: (m.headerLines ++ [[], m.description.text]),
      dropReturn line = line := by
  intro line member
  simp only [headerLines, List.mem_cons, List.mem_append, List.mem_map, List.not_mem_nil,
    or_false] at member
  rcases member with rfl | ⟨h, -, rfl⟩ | rfl | rfl
  · exact dropReturn_headline 2 _
  · exact h.1.dropReturn_line h.2
  · rfl
  · exact dropReturn_of_last (last_ne_return m.description.trimmed)

theorem linesOf_source (m : Manuscript) (closed : Bool) :
    linesOf (m.source closed) = headline 3 m.title.text :: (m.headerLines ++
      [] :: m.description.text ::
        linesOfParts ([] :: (m.parts.flatMap Part.lines ++ ending closed))) := by
  have found : Text.lines (m.source closed) = linesOfParts (m.lines ++ ending closed) :=
    congrArg linesOfParts (splitAt_joinWith (by simp [lines]) (m.newline_lines closed))
  have written : m.lines ++ ending closed =
      (headline 3 m.title.text :: (m.headerLines ++ [[], m.description.text])) ++
        [] :: (m.parts.flatMap Part.lines ++ ending closed) := by
    simp [lines, bodyLines]
  have unmarked : ∀ line ∈ linesOfParts (m.lines ++ ending closed),
      line.dropWhile (· == '\uFEFF') = line := by
    intro line member
    obtain ⟨part, there, same⟩ := mem_linesOfParts member
    have begins : line <+: part := by
      rcases same with rfl | rfl
      · exact List.prefix_refl _
      · exact dropReturn_begins part
    exact dropWhile_unmarked begins (m.unmarked_lines closed part there)
  rw [linesOf, found, List.map_congr_left unmarked, List.map_id', written,
    linesOfParts_append m.opening_kept (List.cons_ne_nil _ _), List.cons_append, List.append_assoc]
  exact List.dropWhile_cons_of_neg (by simp [headline, allBlank, isBlank])

theorem headings (m : Manuscript) (closed : Bool) :
    (linesOfParts (m.parts.flatMap Part.lines ++ ending closed)).filter isHeading =
      m.parts.map fun p => headline 2 p.title.text := by
  have whole : ∀ part ∈ m.parts.flatMap Part.lines ++ ending closed,
      isHeading part = true → dropReturn part = part := by
    intro part member heading
    simp only [List.mem_append, List.mem_flatMap, Part.lines, List.mem_cons, List.mem_map,
      ending] at member
    rcases member with ⟨p, -, rfl | ⟨b, -, rfl⟩⟩ | last
    · exact dropReturn_headline 1 _
    · exact absurd heading (Bool.eq_false_iff.mp b.plain)
    · split at last
      · rw [List.mem_singleton.mp last]
        rfl
      · cases last
  have last : (ending closed).filter isHeading = [] := by cases closed <;> rfl
  have part (p : Part) : p.lines.filter isHeading = [headline 2 p.title.text] := by
    have body : (p.body.map BodyLine.text).filter isHeading = [] := by
      refine List.filter_eq_nil_iff.mpr fun line member => ?_
      obtain ⟨b, -, rfl⟩ := List.mem_map.mp member
      exact Bool.eq_false_iff.mp b.plain
    rw [Part.lines, List.filter_cons_of_pos (isHeading_headline _), body]
  rw [filter_isHeading_linesOfParts whole, List.filter_append, List.filter_flatMap, last,
    List.append_nil, List.map_eq_flatMap]
  simp only [part]

theorem titles (m : Manuscript) (closed : Bool) :
    (sectionsFrom none 0 (linesOfParts (m.parts.flatMap Part.lines ++ ending closed))).map
      Section.title = m.parts.map fun p => p.title.text := by
  have title (c : Caption) : headingTitle? (headline 2 c.text) = some c.text := by
    simp [headingTitle?, markedText_headline c.nonempty c.trimmed, c.nonempty]
  rw [sectionsFrom_titles, m.headings closed, List.filterMap_map]
  simp only [Function.comp_def, title, List.filterMap_eq_map']
  rfl

end Manuscript

theorem Manuscript.entries_distinct (m : Manuscript) : (m.entries.map Prod.fst).Nodup := by
  have keys : m.entries.map Prod.fst =
      (m.headers.map fun h => asciiLower h.1.text).map String.ofList := by
    simp [Manuscript.entries, Function.comp_def]
  rw [keys]
  exact List.Nodup.map (fun _ _ same => String.ofList_injective same) m.distinct

theorem Manuscript.readOpening (m : Manuscript) (rest : List (List Char)) :
    Readme.readOpening []
        (m.headerLines ++ [] :: m.description.text :: linesOfParts ([] :: rest)) =
      ⟨Entries.ofList m.entries, [m.description.text], none, linesOfParts rest⟩ := by
  have some : Entries.ofList m.entries ≠ [] := by
    intro none
    have listed := Entries.ofList_perm m.entries_distinct
    rw [none] at listed
    exact m.headed (List.map_eq_nil_iff.mp listed.nil_eq.symm)
  exact (readOpening_headers m.headers [] _).trans (readOpening_description some rest)

/-- What a readme tells, from its title and from what has been read when the sections begin. -/
theorem ofChars_parts {source name : List Char} {body : List (List Char)} {opening : Opening}
    (title : readTitle (linesOf source) = (name, body)) (opened : readOpening [] body = opening)
    (stableVersion recommendedPhp : String) :
    let readme := ofChars source stableVersion recommendedPhp
    readme.name = .ofList name ∧ readme.headers = opening.headers ∧
      readme.shortDescription =
        .ofList ((joinWith [' '] opening.description).take descriptionLimit) ∧
      readme.sections = (sectionsFrom (opening.heading.bind headingTitle?) 0 opening.rest).map
        fun s => keyOfTitle s.title := by
  intro readme
  have read : readme = ofChars source stableVersion recommendedPhp := rfl
  simp only [ofChars, title, opened] at read
  rw [read]
  exact ⟨rfl, rfl, rfl, rfl⟩

/-- A readme in canonical form is read as it has been written, whether or not its last line ends
with a line feed. -/
theorem ofSource_manuscript (m : Manuscript) (closed : Bool)
    (stableVersion recommendedPhp : String) :
    let readme := ofSource (.ofList (m.source closed)) stableVersion recommendedPhp
    readme.name = .ofList m.title.text ∧ readme.headers.Perm m.entries ∧
      readme.shortDescription = .ofList m.description.text ∧
        readme.sections = m.parts.map fun p => keyOfTitle p.title.text := by
  intro readme
  have source : readme = ofChars (m.source closed) stableVersion recommendedPhp := by
    simp only [readme, ofSource, String.toList_ofList]
  have title : readTitle (linesOf (m.source closed)) = (m.title.text, m.headerLines ++ [] ::
      m.description.text ::
        linesOfParts ([] :: (m.parts.flatMap Part.lines ++ Manuscript.ending closed))) := by
    rw [m.linesOf_source closed, readTitle, if_pos (isTitle_headline _),
      markedText_headline m.title.nonempty m.title.trimmed]
  obtain ⟨name, headers, description, sections⟩ :=
    ofChars_parts title (m.readOpening _) stableVersion recommendedPhp
  rw [← source] at name headers description sections
  refine ⟨name, ?_, ?_, ?_⟩
  · rw [headers]
    exact Entries.ofList_perm m.entries_distinct
  · rw [description]
    exact congrArg String.ofList (List.take_of_length_le m.short)
  · have titles := congrArg (List.map keyOfTitle) (m.titles closed)
    rw [List.map_map, List.map_map] at titles
    exact sections.trans titles

/-- A manuscript whose texts have marks and colons of their own. -/
def Manuscript.marked : Manuscript where
  title := ⟨⟨"= One # Two =".toList, by decide, by decide⟩, by decide⟩
  headers := [(⟨"Stable tag".toList, List.all_eq_true.mp (by decide), by decide, by decide⟩,
      ⟨"* a: b".toList, by decide, by decide⟩),
    (⟨"License".toList, List.all_eq_true.mp (by decide), by decide, by decide⟩,
      ⟨[], by decide, by decide⟩)]
  headed := by decide
  distinct := by decide
  description := ⟨⟨"Note: # no heading.".toList, by decide, by decide⟩, by decide⟩
  short := by decide
  unmarked := by decide
  plain := by decide
  parts := [⟨⟨⟨"#".toList, by decide, by decide⟩, by decide⟩,
    [⟨"= 1.0 =".toList, by decide, by decide, by decide⟩, ⟨[], by decide, by decide, by decide⟩]⟩]

theorem ofSource_manuscript_marked :
    let lines := ["=== = One # Two = ===", "Stable tag: * a: b", "License: ", "",
      "Note: # no heading.", "", "== # ==", "= 1.0 =", "", ""]
    let readme := ofSource ("\n".intercalate lines) "6.7" "7.4"
    readme.name = "= One # Two =" ∧
      readme.headers.Perm [("stable tag", "* a: b"), ("license", "")] ∧
        readme.shortDescription = "Note: # no heading." ∧ readme.sections = ["#"] := by
  intro lines
  have source : String.ofList (Manuscript.marked.source true) = "\n".intercalate lines := by decide
  have read := ofSource_manuscript Manuscript.marked true "6.7" "7.4"
  rw [source] at read
  exact read

end PluginAudit.Readme
