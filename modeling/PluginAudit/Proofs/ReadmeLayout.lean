import Mathlib.Data.List.Forall2
import PluginAudit.Proofs.ReadmeOutline

/-!
The layout of a readme. Texts that differ in the white space at the ends of their lines, in byte
order marks at the heads of lines and in the number of blank lines before all others are read
alike; so are a text whose lines end with line feeds and one whose lines end with carriage returns
and line feeds.
-/

namespace PluginAudit

namespace Readme

open Text

/-! ### Lines with white space behind them -/

section Lines

variable {line line' : List Char}

theorem isAlpha_blank {c : Char} (blank : isBlank c = true) : c.isAlpha = false := by
  by_contra letter
  rw [isBlank_of_isAlpha (Bool.not_eq_false _ ▸ letter)] at blank
  cases blank

theorem isTitle_padded (padded : Padded line line') : isTitle line' = isTitle line := by
  unfold isTitle trimStart
  rcases (padded.dropWhile isBlank).head with ⟨none, blank⟩ | ⟨c, rest, rest', first, first', -⟩
  · rw [none]
    split
    · rename_i c rest first
      exact isMark_blank (blank c (by rw [first]; rfl))
    · rfl
  · rw [first, first']

theorem markedText_padded (padded : Padded line line') (titled : isTitle line = true) :
    markedText line' = markedText line := by
  obtain ⟨mark, rest, marked, start⟩ := isTitle_start titled
  rcases (padded.dropWhile isBlank).head with ⟨none, -⟩ | ⟨c, rest, rest', first, first', tail⟩
  · rw [trimStart, none] at start
    cases start
  · rw [trimStart, first] at start
    cases start
    have body : trim (rest'.dropWhile (· == mark)) = trim (rest.dropWhile (· == mark)) :=
      (tail.dropWhile (· == mark)).trim
    rw [markedText_start marked first, markedText_start marked first']
    exact congrArg (fun text => trimEnd (dropEndWhile isMark text)) body

theorem headingTitle?_padded (padded : Padded line line') (heading : isHeading line = true) :
    headingTitle? line' = headingTitle? line := by
  rw [headingTitle?, headingTitle?,
    markedText_padded padded (isTitle_heading (isHeading_iff.mp heading))]

theorem headerOf?_padded (padded : Padded line line') : headerOf? line' = headerOf? line := by
  have start := ((padded.dropWhile isBlank).dropWhile (· == '*')).dropWhile isBlank
  unfold headerOf? trimStart
  rcases start.head with ⟨none, blank⟩ | ⟨c, rest, rest', first, first', tail⟩
  · rw [none]
    dsimp only
    split
    · rfl
    · rename_i c more first
      rw [isAlpha_blank (blank c (by rw [first]; rfl))]
      rfl
  · rw [first, first'] at start
    rw [first, first']
    dsimp only
    have after := start.dropWhile isKeyChar
    -- A key that runs to the end of the line takes blanks with it; then no colon follows either.
    rcases (after.dropWhile isBlank).head with
      ⟨none, blank⟩ | ⟨d, more, more', second, second', value⟩
    · rw [none]
      split
      · rfl
      · split
        · rename_i more second
          exact absurd (blank ':' (by rw [second]; rfl)) (by decide)
        · rfl
    · have ends : (c :: rest).dropWhile isKeyChar ≠ [] := by
        intro none
        rw [none] at second
        cases second
      rw [second, second', start.takeWhile ends]
      have trimmed : trim (more'.dropWhile (· == '*')) = trim (more.dropWhile (· == '*')) :=
        (value.dropWhile (· == '*')).trim
      split
      · rfl
      · by_cases colon : d = ':'
        · subst colon
          simp only [trimmed]
        · split
          · rename_i same
            cases same
            exact absurd rfl colon
          · split
            · rename_i same
              cases same
              exact absurd rfl colon
            · rfl

end Lines

/-! ### Texts with white space at the ends of their lines -/

section Texts

variable {lines : List (List Char)}

theorem allBlank_trimEnd (line : List Char) : allBlank (trimEnd line) = allBlank line :=
  (padded_trimEnd line).allBlank.symm

theorem isEmpty_trimEnd (line : List Char) : (trimEnd line).isEmpty = allBlank line := by
  cases blank : allBlank line with
  | true =>
    have none : trimEnd ([] ++ line) = trimEnd [] :=
      dropEndWhile_append fun c member => List.all_eq_true.mp blank c member
    exact congrArg List.isEmpty none
  | false =>
    rw [← allBlank_trimEnd] at blank
    refine List.isEmpty_eq_false_iff.mpr fun none => ?_
    rw [none] at blank
    cases blank

theorem isHeading_trimEnd (line : List Char) : isHeading (trimEnd line) = isHeading line :=
  (isHeading_padded (padded_trimEnd line)).symm

theorem headerOf?_trimEnd (line : List Char) : headerOf? (trimEnd line) = headerOf? line :=
  (headerOf?_padded (padded_trimEnd line)).symm

theorem trim_trimEnd (line : List Char) : trim (trimEnd line) = trim line :=
  (padded_trimEnd line).trim.symm

theorem readTitle_trimEnd (lines : List (List Char)) :
    readTitle (lines.map trimEnd) = ((readTitle lines).1, (readTitle lines).2.map trimEnd) := by
  cases lines with
  | nil => rfl
  | cons line rest =>
    have padded := padded_trimEnd line
    rw [List.map_cons, readTitle, readTitle, ← isTitle_padded padded]
    cases titled : isTitle line with
    | false => rfl
    | true =>
      rw [isTitle_padded padded] at titled
      simp only [if_true, markedText_padded padded titled]

theorem readParagraph_headers (headers : List (String × String)) (read lines) :
    (readParagraph headers read lines).headers = headers := by
  induction lines generalizing read with
  | nil => rfl
  | cons line rest ih =>
    rw [readParagraph]
    split
    · rfl
    · split
      · rfl
      · exact ih _

theorem readDescription_headers (headers : List (String × String)) (lines) :
    (readDescription headers lines).headers = headers := by
  unfold readDescription
  split
  · rfl
  · split
    · rfl
    · exact readParagraph_headers headers _ _

theorem readOpening_headers_trimEnd (headers : List (String × String)) (lines) :
    (readOpening headers (lines.map trimEnd)).headers = (readOpening headers lines).headers := by
  induction lines generalizing headers with
  | nil => rfl
  | cons line rest ih =>
    rw [List.map_cons, readOpening, readOpening, allBlank_trimEnd, isHeading_trimEnd,
      headerOf?_trimEnd]
    split
    · split
      · exact ih headers
      · rw [readDescription_headers, readDescription_headers]
    · split
      · rfl
      · split
        · exact ih _
        · rw [readParagraph_headers, readParagraph_headers]

theorem paragraph_trimEnd (lines : List (List Char)) :
    paragraph (lines.map trimEnd) = paragraph lines := by
  simp only [paragraph, belowHeaders, List.dropWhile_map, List.takeWhile_map, List.map_map,
    Function.comp_def, isHeaderLine, isProse, allBlank_trimEnd, isHeading_trimEnd,
    headerOf?_trimEnd, trim_trimEnd]
  rfl

theorem sectionsFrom_trimEnd (title : Option (List Char)) (count : Nat) (lines) :
    sectionsFrom title count (lines.map trimEnd) = sectionsFrom title count lines := by
  induction lines generalizing title count with
  | nil => rfl
  | cons line rest ih =>
    have padded := padded_trimEnd line
    rw [List.map_cons, sectionsFrom, sectionsFrom, ← padded.words, ← isHeading_padded padded]
    split
    · rename_i heading
      rw [isHeading_padded padded] at heading
      rw [ih, headingTitle?_padded padded heading]
    · exact ih _ _

/-- A readme is read from its lines without the white space at their ends. -/
theorem ofChars_of_lines {source source' : List Char}
    (same : (linesOf source).map trimEnd = (linesOf source').map trimEnd)
    (stableVersion recommendedPhp : String) :
    ofChars source stableVersion recommendedPhp = ofChars source' stableVersion recommendedPhp := by
  have title := readTitle_trimEnd (linesOf source)
  have title' := readTitle_trimEnd (linesOf source')
  rw [same, title'] at title
  cases read : readTitle (linesOf source) with
  | mk name body =>
  cases read' : readTitle (linesOf source') with
  | mk name' body' =>
  rw [read, read'] at title
  obtain ⟨rfl, bodies⟩ := Prod.mk.inj title
  have headers : (readOpening [] body).headers = (readOpening [] body').headers := by
    rw [← readOpening_headers_trimEnd, ← bodies, readOpening_headers_trimEnd]
  have description : joinWith [' '] (readOpening [] body).description =
      joinWith [' '] (readOpening [] body').description := by
    rw [readOpening_paragraph, readOpening_paragraph, ← paragraph_trimEnd, ← bodies,
      paragraph_trimEnd]
  have sections : (readOpening [] body).sections = (readOpening [] body').sections := by
    rw [readOpening_sections, readOpening_sections, ← sectionsFrom_trimEnd, ← bodies,
      sectionsFrom_trimEnd]
  unfold Opening.sections at sections
  simp only [ofChars, read, read', headers, description, sections]

end Texts

/-! ### Texts that are laid out in different ways -/

/-- Lines that are equal up to byte order marks at their heads and white space at their ends. -/
def SameLine (line line' : List Char) : Prop :=
  ∃ marks marks' core gap gap', (∀ c ∈ marks, c = '\uFEFF') ∧ (∀ c ∈ marks', c = '\uFEFF') ∧
    (∀ c ∈ gap, isBlank c = true) ∧ (∀ c ∈ gap', isBlank c = true) ∧
    line = marks ++ (core ++ gap) ∧ line' = marks' ++ (core ++ gap')

/-- Texts with the same lines, up to any number of blank lines before the others. -/
def Alike (source source' : List Char) : Prop :=
  ∃ skipped skipped' rest rest', Text.lines source = skipped ++ rest ∧
    Text.lines source' = skipped' ++ rest' ∧ (∀ line ∈ skipped, SameLine line []) ∧
    (∀ line ∈ skipped', SameLine line []) ∧ List.Forall₂ SameLine rest rest'

/-- The same text with a carriage return before each line feed. -/
def returned (source : List Char) : List Char :=
  source.flatMap fun c => if c = '\n' then ['\r', '\n'] else [c]

/-- A line without what layout adds to it. -/
def tidy (line : List Char) : List Char := trimEnd (line.dropWhile (· == '\uFEFF'))

section Layouts

variable {line line' : List Char} {source source' : List Char}

theorem tidy_laid {marks core gap : List Char} (marked : ∀ c ∈ marks, c = '\uFEFF')
    (blanks : ∀ c ∈ gap, isBlank c = true) : tidy (marks ++ (core ++ gap)) = tidy core := by
  have padded : Padded core (core ++ gap) := ⟨gap, blanks, rfl⟩
  rw [tidy, List.dropWhile_append_of_pos fun c member => by simpa using marked c member]
  exact (padded.dropWhile _).trimEnd

theorem tidy_split (line : List Char) : ∃ marks gap, (∀ c ∈ marks, c = '\uFEFF') ∧
    (∀ c ∈ gap, isBlank c = true) ∧ line = marks ++ (tidy line ++ gap) := by
  obtain ⟨marks, first, marked, -⟩ := dropWhile_split (· == '\uFEFF') line
  obtain ⟨gap, blanks, last⟩ := padded_trimEnd (line.dropWhile (· == '\uFEFF'))
  refine ⟨marks, gap, fun c member => by simpa using marked c member, blanks, ?_⟩
  rw [tidy, ← last]
  exact first

theorem sameLine_iff : SameLine line line' ↔ tidy line = tidy line' := by
  constructor
  · rintro ⟨marks, marks', core, gap, gap', marked, marked', blanks, blanks', rfl, rfl⟩
    rw [tidy_laid marked blanks, tidy_laid marked' blanks']
  · intro same
    obtain ⟨marks, gap, marked, blanks, split⟩ := tidy_split line
    obtain ⟨marks', gap', marked', blanks', split'⟩ := tidy_split line'
    exact ⟨marks, marks', tidy line', gap, gap', marked, marked', blanks, blanks', same ▸ split,
      split'⟩

/-- The lines of a text without layout. -/
def tidyLines (source : List Char) : List (List Char) :=
  ((Text.lines source).map tidy).dropWhile (·.isEmpty)

theorem linesOf_trimEnd (source : List Char) :
    (linesOf source).map trimEnd = tidyLines source := by
  have blank : (List.isEmpty ∘ trimEnd : List Char → Bool) = allBlank := funext isEmpty_trimEnd
  rw [linesOf, ← blank, ← List.dropWhile_map, List.map_map]
  rfl

/-- Texts are laid out alike exactly if the same lines are left without the layout. -/
theorem alike_iff : Alike source source' ↔ tidyLines source = tidyLines source' := by
  have blank {line : List Char} : SameLine line [] ↔ (tidy line).isEmpty := by
    rw [sameLine_iff, List.isEmpty_iff]
    rfl
  have skip {skipped : List (List Char)} (blanks : ∀ line ∈ skipped, SameLine line [])
      (rest : List (List Char)) : ((skipped ++ rest).map tidy).dropWhile (·.isEmpty) =
        (rest.map tidy).dropWhile (·.isEmpty) := by
    rw [List.map_append, List.dropWhile_append_of_pos]
    simpa using fun line member => List.isEmpty_iff.mp (blank.mp (blanks line member))
  constructor
  · rintro ⟨skipped, skipped', rest, rest', split, split', blanks, blanks', same⟩
    have tidied : rest.map tidy = rest'.map tidy := by
      rw [← List.forall₂_eq_eq_eq, List.forall₂_map_left_iff, List.forall₂_map_right_iff]
      exact same.imp fun _ _ => sameLine_iff.mp
    rw [tidyLines, tidyLines, split, split', skip blanks, skip blanks', tidied]
  · intro same
    have leading (source : List Char) :
        ∀ line ∈ (Text.lines source).takeWhile (List.isEmpty ∘ tidy), SameLine line [] :=
      fun line member => blank.mpr (List.mem_takeWhile_imp (p := List.isEmpty ∘ tidy) member)
    refine ⟨_, _, _, _, List.takeWhile_append_dropWhile.symm,
      List.takeWhile_append_dropWhile.symm, leading source, leading source', ?_⟩
    rw [tidyLines, tidyLines, List.dropWhile_map, List.dropWhile_map, ← List.forall₂_eq_eq_eq,
      List.forall₂_map_left_iff, List.forall₂_map_right_iff] at same
    exact same.imp fun _ _ => sameLine_iff.mpr

theorem returned_append (first rest : List Char) :
    returned (first ++ rest) = returned first ++ returned rest := List.flatMap_append

theorem returned_line (one : '\n' ∉ line) : returned line = line := by
  rw [returned, List.flatMap_congr (g := ([·]))]
  · exact List.flatMap_singleton' line
  · exact fun c member => if_neg (ne_of_mem_of_not_mem member one)

theorem lines_cons (one : '\n' ∉ line) (rest : List Char) :
    Text.lines (line ++ '\n' :: rest) = dropReturn line :: Text.lines rest := by
  rw [lines_feed, splitAt_line one]
  rfl

theorem dropReturn_concat (line : List Char) : dropReturn (line ++ ['\r']) = line := by
  induction line with
  | nil => rfl
  | cons c rest ih =>
    obtain ⟨d, more, split⟩ := List.exists_cons_of_ne_nil
      (List.concat_ne_nil '\r' rest)
    rw [List.cons_append, split, dropReturn, ← split, ih]
    exact fun _ none => List.cons_ne_nil d more none

theorem sameLine_dropReturn (line : List Char) : SameLine (dropReturn line) line := by
  rw [sameLine_iff, tidy, tidy]
  exact ((padded_dropReturn line).dropWhile _).trimEnd.symm

theorem lines_returned (source : List Char) :
    List.Forall₂ SameLine (Text.lines source) (Text.lines (returned source)) := by
  by_cases broken : '\n' ∈ source
  · obtain ⟨line, rest, rfl, one⟩ := List.eq_append_cons_of_mem broken
    have written : returned (line ++ '\n' :: rest) = (line ++ ['\r']) ++ '\n' :: returned rest := by
      rw [returned_append, returned_line one, List.append_assoc]
      rfl
    have one' : '\n' ∉ line ++ ['\r'] := by simp [one]
    -- A line that ends with a carriage return already loses the added one and keeps its own, which
    -- is white space at its end.
    rw [written, lines_cons one, lines_cons one', dropReturn_concat]
    exact .cons (sameLine_dropReturn line) (lines_returned rest)
  · rw [returned_line broken, List.forall₂_same]
    exact fun line _ => sameLine_iff.mpr rfl
termination_by source.length

theorem alike_returned (source : List Char) : Alike source (returned source) :=
  ⟨[], [], _, _, rfl, rfl, nofun, nofun, lines_returned source⟩

end Layouts

/-- Readmes that differ only in their layout are read alike, and a readme is read as it is with
carriage returns before its line feeds. -/
theorem ofSource_alike (source source' stableVersion recommendedPhp : String)
    (alike : Alike source.toList source'.toList) :
    ofSource source stableVersion recommendedPhp = ofSource source' stableVersion recommendedPhp ∧
      ofSource (.ofList (returned source.toList)) stableVersion recommendedPhp =
        ofSource source stableVersion recommendedPhp := by
  have read {cs ds : List Char} (alike : Alike cs ds) :
      ofChars cs stableVersion recommendedPhp = ofChars ds stableVersion recommendedPhp := by
    refine ofChars_of_lines ?_ stableVersion recommendedPhp
    rw [linesOf_trimEnd, linesOf_trimEnd]
    exact alike_iff.mp alike
  refine ⟨read alike, ?_⟩
  rw [ofSource, String.toList_ofList]
  exact (read (alike_returned source.toList)).symm

theorem ofSource_alike_marked :
    let marked := "\uFEFF  \r\n\uFEFF=== Plugin === \r\nTags: one\r\n\t\r\nWhat it does.\r\n"
    let plain := "=== Plugin ===\nTags: one\n\nWhat it does."
    Alike marked.toList plain.toList ∧
      ofSource marked "6.5" "7.4" = ofSource plain "6.5" "7.4" := by
  intro marked plain
  have alike : Alike marked.toList plain.toList := alike_iff.mpr (by decide +kernel)
  exact ⟨alike, (ofSource_alike _ _ "6.5" "7.4" alike).1⟩

end Readme

end PluginAudit
