import PluginAudit.Proofs.ReadmeOmissions

/-!
The outline of a readme. Its headings cut the lines below the title into blocks; the blocks that
have a title are the sections, in their order, and a section is warned of exactly if the lines of
its own block have more words than it may have. Where the first heading is met, among the headers,
behind them or in the description, makes no difference.
-/

namespace PluginAudit

namespace Readme

open Text

/-! ### Headings and their titles -/

/-- Two marks of one kind after white space, and no third mark behind them. -/
def IsHeading (line : List Char) : Prop :=
  ∃ gap mark rest, (∀ c ∈ gap, isBlank c = true) ∧ (mark = '=' ∨ mark = '#') ∧
    line = gap ++ mark :: mark :: rest ∧ ∀ c ∈ rest.head?, c ≠ '=' ∧ c ≠ '#'

/-- What may close a line with a title: white space, marks and white space again. -/
def IsClosing (tail : List Char) : Prop :=
  ∃ gap marks gap', (∀ c ∈ gap, isBlank c = true) ∧ (∀ c ∈ marks, isMark c = true) ∧
    (∀ c ∈ gap', isBlank c = true) ∧ tail = gap ++ (marks ++ gap')

/-- The title of a line with marks. All equal marks at the head are passed over and the white space
behind them, and as much of the rest as can close the line is left out. -/
def IsTitled (line title : List Char) : Prop :=
  ∃ gap mark marks gap' tail, (∀ c ∈ gap, isBlank c = true) ∧ (mark = '=' ∨ mark = '#') ∧
    (∀ c ∈ marks, c = mark) ∧ (∀ c ∈ gap', isBlank c = true) ∧ IsClosing tail ∧
    line = gap ++ mark :: (marks ++ (gap' ++ (title ++ tail))) ∧
    (∀ c ∈ (gap' ++ (title ++ tail)).head?, c ≠ mark) ∧
    (∀ c ∈ (title ++ tail).head?, isBlank c = false) ∧
    ∀ shorter more, title ++ tail = shorter ++ more → IsClosing more → title <+: shorter

/-- A line without what closes it. -/
def unclosed (cs : List Char) : List Char := trimEnd (dropEndWhile isMark (trimEnd cs))

section Lines

variable {line cs rest tail marks gap : List Char} {mark : Char}

theorem dropWhile_split (p : Char → Bool) (cs : List Char) :
    ∃ head, cs = head ++ cs.dropWhile p ∧ (∀ c ∈ head, p c = true) ∧
      ∀ c ∈ (cs.dropWhile p).head?, p c = false := by
  refine ⟨cs.takeWhile p, List.takeWhile_append_dropWhile.symm,
    fun c member => List.mem_takeWhile_imp member, head_dropWhile p cs⟩

theorem isHeading_iff : isHeading line = true ↔ IsHeading line := by
  obtain ⟨gap, split, blanks, -⟩ := dropWhile_split isBlank line
  constructor
  · intro heading
    have unmarked {rest : List Char} (alone : rest.head?.all (!isMark ·) = true) :
        ∀ c ∈ rest.head?, c ≠ '=' ∧ c ≠ '#' := by
      intro c first
      rw [first] at alone
      simpa [isMark] using alone
    unfold isHeading at heading
    split at heading
    · rename_i rest start
      exact ⟨gap, '=', rest, blanks, .inl rfl, start ▸ split, unmarked heading⟩
    · rename_i rest start
      exact ⟨gap, '#', rest, blanks, .inr rfl, start ▸ split, unmarked heading⟩
    · cases heading
  · rintro ⟨gap, mark, rest, blanks, marked, rfl, alone⟩
    have start : trimStart (gap ++ mark :: mark :: rest) = mark :: mark :: rest := by
      rw [trimStart, List.dropWhile_append_of_pos blanks]
      exact trimStart_cons (isBlank_mark (by rcases marked with rfl | rfl <;> rfl))
    have last : rest.head?.all (!isMark ·) = true := by
      cases rest with
      | nil => rfl
      | cons c more => simpa [isMark] using alone c rfl
    rw [isHeading, start]
    rcases marked with rfl | rfl <;> exact last

theorem unclosed_split (cs : List Char) : ∃ tail, cs = unclosed cs ++ tail ∧ IsClosing tail := by
  obtain ⟨gap', last, blanks'⟩ := dropEndWhile_split isBlank cs
  obtain ⟨marks, middle, marked⟩ := dropEndWhile_split isMark (trimEnd cs)
  obtain ⟨gap, first, blanks⟩ := dropEndWhile_split isBlank (dropEndWhile isMark (trimEnd cs))
  have inner : dropEndWhile isMark (trimEnd cs) = unclosed cs ++ gap := first
  refine ⟨gap ++ (marks ++ gap'), ?_, gap, marks, gap', blanks, marked, blanks', rfl⟩
  calc
    cs = trimEnd cs ++ gap' := last
    _ = dropEndWhile isMark (trimEnd cs) ++ marks ++ gap' := by rw [← middle]
    _ = unclosed cs ++ gap ++ marks ++ gap' := by rw [inner]
    _ = unclosed cs ++ (gap ++ (marks ++ gap')) := by simp only [List.append_assoc]

theorem trimEnd_unmarked_begins (blanks : ∀ c ∈ gap, isBlank c = true) (cs : List Char) :
    trimEnd (dropEndWhile isMark (cs ++ gap)) <+: cs := by
  -- A blank at the end keeps all marks before it; without one, marks of the text itself are dropped.
  rcases List.eq_nil_or_concat gap with rfl | ⟨others, last, rfl⟩
  · rw [List.append_nil]
    exact (dropEndWhile_begins _ _).trans (dropEndWhile_begins _ _)
  · rw [List.concat_eq_append] at blanks ⊢
    have kept : dropEndWhile isMark (cs ++ (others ++ [last])) = cs ++ (others ++ [last]) := by
      rw [← List.append_assoc]
      exact dropEndWhile_concat (isMark_blank (blanks last (by simp)))
    rw [kept, trimEnd, dropEndWhile_append blanks]
    exact dropEndWhile_begins _ _

/-- Nothing shorter is left before any other ending that can close the line. -/
theorem unclosed_begins (closing : IsClosing tail) (cs : List Char) :
    unclosed (cs ++ tail) <+: cs := by
  obtain ⟨gap, marks, gap', blanks, marked, blanks', rfl⟩ := closing
  have outer : trimEnd (cs ++ (gap ++ (marks ++ gap'))) = trimEnd (cs ++ gap ++ marks) := by
    rw [← List.append_assoc, ← List.append_assoc]
    exact dropEndWhile_append blanks'
  rw [unclosed, outer]
  rcases List.eq_nil_or_concat marks with rfl | ⟨others, last, rfl⟩
  · rw [List.append_nil, trimEnd, trimEnd, dropEndWhile_append blanks]
    exact ((dropEndWhile_begins _ _).trans (dropEndWhile_begins _ _)).trans
      (dropEndWhile_begins _ _)
  · rw [List.concat_eq_append] at marked ⊢
    have kept : trimEnd (cs ++ gap ++ (others ++ [last])) = cs ++ gap ++ (others ++ [last]) := by
      rw [← List.append_assoc]
      exact dropEndWhile_concat (isBlank_mark (marked last (by simp)))
    rw [kept, dropEndWhile_append marked]
    exact trimEnd_unmarked_begins blanks cs

theorem isTitle_start (titled : isTitle line = true) :
    ∃ mark rest, (mark = '=' ∨ mark = '#') ∧ trimStart line = mark :: rest := by
  unfold isTitle at titled
  split at titled
  · rename_i mark rest start
    exact ⟨mark, rest, by simpa [isMark] using titled, start⟩
  · cases titled

theorem isTitle_heading (heading : IsHeading line) : isTitle line = true := by
  obtain ⟨gap, mark, rest, blanks, marked, rfl, -⟩ := heading
  have isMarked : isMark mark = true := by rcases marked with rfl | rfl <;> rfl
  rw [isTitle, trimStart, List.dropWhile_append_of_pos blanks,
    List.dropWhile_cons_of_neg (by simp [isBlank_mark isMarked])]
  exact isMarked

theorem markedText_start (marked : mark = '=' ∨ mark = '#')
    (start : trimStart line = mark :: rest) :
    markedText line = unclosed (trimStart (rest.dropWhile (· == mark))) := by
  rw [markedText, start]
  rcases marked with rfl | rfl <;> rfl

theorem isTitled_markedText (titled : isTitle line = true) :
    IsTitled line (markedText line) := by
  obtain ⟨mark, rest, marked, start⟩ := isTitle_start titled
  obtain ⟨gap, first, blanks, -⟩ := dropWhile_split isBlank line
  obtain ⟨marks, second, equal, other⟩ := dropWhile_split (· == mark) rest
  obtain ⟨gap', third, blanks', solid⟩ := dropWhile_split isBlank (rest.dropWhile (· == mark))
  rw [markedText_start marked start]
  obtain ⟨tail, whole, closing⟩ := unclosed_split (trimStart (rest.dropWhile (· == mark)))
  have alike : ∀ c ∈ marks, c = mark := fun c member => by simpa using equal c member
  refine ⟨gap, mark, marks, gap', tail, blanks, marked, alike, blanks', closing, ?_, ?_, ?_,
    fun shorter more same closing' => ?_⟩
  · rw [← whole, trimStart, ← third, ← second, ← start]
    exact first
  · rw [← whole, trimStart, ← third]
    exact fun c head => by simpa using other c head
  · rw [← whole]
    exact solid
  · rw [← whole] at same
    rw [same]
    exact unclosed_begins closing' shorter

end Lines

/-! ### Blocks and sections -/

/-- A heading with its title and the lines up to the next heading. -/
structure Block where
  heading : List Char
  title : List Char
  body : List (List Char)

namespace Block

structure Valid (b : Block) : Prop where
  headed : IsHeading b.heading
  titled : IsTitled b.heading b.title
  unheaded : ∀ line ∈ b.body, ¬IsHeading line

def lines (b : Block) : List (List Char) := b.heading :: b.body

def wordCount (b : Block) : Nat := (b.body.flatMap words).length

def toSection (b : Block) : Section := ⟨b.title, b.wordCount⟩

end Block

/-- The blocks into which headings cut the lines behind the first of them. -/
def cut : List (List Char) → List (List Char) × List Block
  | [] => ([], [])
  | line :: rest =>
    if isHeading line then ([], ⟨line, markedText line, (cut rest).1⟩ :: (cut rest).2)
    else (line :: (cut rest).1, (cut rest).2)

section Blocks

variable {lines : List (List Char)}

theorem cut_whole (lines : List (List Char)) :
    (cut lines).1 ++ (cut lines).2.flatMap Block.lines = lines := by
  induction lines with
  | nil => rfl
  | cons line rest ih =>
    rw [cut]
    split
    · rw [List.nil_append, List.flatMap_cons, Block.lines, List.cons_append, ih]
    · rw [List.cons_append, ih]

theorem cut_valid (lines : List (List Char)) :
    (∀ line ∈ (cut lines).1, ¬IsHeading line) ∧ ∀ b ∈ (cut lines).2, b.Valid := by
  induction lines with
  | nil => exact ⟨List.forall_mem_nil _, List.forall_mem_nil _⟩
  | cons line rest ih =>
    obtain ⟨before, blocks⟩ := ih
    rw [cut]
    split
    · rename_i heading
      have headed := isHeading_iff.mp heading
      have first : Block.Valid ⟨line, markedText line, (cut rest).1⟩ :=
        ⟨headed, isTitled_markedText (isTitle_heading headed), before⟩
      exact ⟨List.forall_mem_nil _, List.forall_mem_cons.mpr ⟨first, blocks⟩⟩
    · rename_i plain
      rw [isHeading_iff] at plain
      exact ⟨List.forall_mem_cons.mpr ⟨plain, before⟩, blocks⟩

/-- The sections are the blocks with a title; the lines before the first heading go to the section
that is open, if there is one. -/
theorem sectionsFrom_cut (title : Option (List Char)) (count : Nat) (lines : List (List Char)) :
    sectionsFrom title count lines =
      closeSection title (count + ((cut lines).1.flatMap words).length)
        (((cut lines).2.filter (·.title ≠ [])).map Block.toSection) := by
  -- A heading closes the open section, and what is open then depends on its title alone.
  induction lines generalizing title count with
  | nil => rfl
  | cons line rest ih =>
    rw [sectionsFrom, cut]
    split
    · have titled : headingTitle? line =
          if markedText line = [] then none else some (markedText line) := by
        simp [headingTitle?]
      rw [ih, titled]
      by_cases empty : markedText line = []
      · simp [empty, closeSection]
      · simp [empty, closeSection, Block.toSection, Block.wordCount]
    · rw [ih]
      simp [Nat.add_assoc]

/-- Below no title words are not counted. -/
theorem sectionsFrom_none (count : Nat) (lines : List (List Char)) :
    sectionsFrom none count lines = sectionsFrom none 0 lines := by
  rw [sectionsFrom_cut, sectionsFrom_cut none 0]
  rfl

theorem sectionsFrom_plain {line : List Char} (plain : isHeading line = false)
    (rest : List (List Char)) : sectionsFrom none 0 (line :: rest) = sectionsFrom none 0 rest := by
  rw [sectionsFrom, plain]
  exact sectionsFrom_none _ rest

theorem sectionsFrom_blank (lines : List (List Char)) :
    sectionsFrom none 0 (lines.dropWhile allBlank) = sectionsFrom none 0 lines := by
  induction lines with
  | nil => rfl
  | cons line rest ih =>
    cases blank : allBlank line with
    | false => rw [List.dropWhile_cons_of_neg (by simp [blank])]
    | true => rw [List.dropWhile_cons_of_pos blank, ih, sectionsFrom_plain (isHeading_blank blank)]

theorem sectionsFrom_heading {line : List Char} (heading : isHeading line = true)
    (rest : List (List Char)) (headers description) :
    Opening.sections ⟨headers, description, some line, rest⟩ =
      sectionsFrom none 0 (line :: rest) := by
  rw [sectionsFrom, if_pos heading]
  rfl

theorem readParagraph_sections (headers : List (String × String)) (read lines) :
    (readParagraph headers read lines).sections = sectionsFrom none 0 lines := by
  induction lines generalizing read with
  | nil => rfl
  | cons line rest ih =>
    rw [readParagraph]
    split
    · rename_i heading
      exact sectionsFrom_heading heading rest headers _
    · rename_i plain
      rw [sectionsFrom_plain (Bool.eq_false_iff.mpr plain)]
      split
      · rfl
      · exact ih _

theorem readDescription_sections (headers : List (String × String)) (lines) :
    (readDescription headers lines).sections = sectionsFrom none 0 lines := by
  rw [readDescription, ← sectionsFrom_blank lines]
  split
  · rename_i none
    rw [none]
    rfl
  · rename_i line rest first
    rw [first]
    split
    · rename_i heading
      exact sectionsFrom_heading heading rest headers _
    · rename_i plain
      rw [sectionsFrom_plain (Bool.eq_false_iff.mpr plain)]
      exact readParagraph_sections headers _ rest

/-- The sections are those of all lines, wherever the opening ends. -/
theorem readOpening_sections (headers : List (String × String)) (lines) :
    (readOpening headers lines).sections = sectionsFrom none 0 lines := by
  induction lines generalizing headers with
  | nil => rfl
  | cons line rest ih =>
    rw [readOpening]
    split
    · rename_i blank
      rw [sectionsFrom_plain (isHeading_blank blank)]
      split
      · exact ih headers
      · exact readDescription_sections headers rest
    · split
      · rename_i heading
        exact sectionsFrom_heading heading rest headers _
      · rename_i plain
        rw [sectionsFrom_plain (Bool.eq_false_iff.mpr plain)]
        split
        · exact ih _
        · exact readParagraph_sections headers _ rest

end Blocks

/-! ### Keys and limits -/

/-- A title in small letters, with underscores for spaces and hyphens. -/
def plainKey (title : List Char) : String :=
  .ofList ((lower (trim title)).map fun c => if c = ' ' ∨ c = '-' then '_' else c)

/-- The number of words that a section may have. The two long ones have two names each. -/
def wordBound (title : List Char) : Nat :=
  if plainKey title ∈ ["changelog", "change_log", "faq", "frequently_asked_questions"] then 5000
  else 2500

theorem wordLimit_keyOfTitle (title : List Char) :
    wordLimit (keyOfTitle title) = wordBound title := by
  have plain : String.ofList ((lower (trim title)).map
      fun c => if c = ' ' || c = '-' then '_' else c) = plainKey title := by
    simp [plainKey]
  unfold keyOfTitle wordBound
  simp only [plain]
  split
  · rename_i same
    rw [same]
    decide
  · rename_i same
    rw [same]
    decide
  · rename_i same
    rw [same]
    decide
  · rename_i noQuestions noLog _
    have questions : plainKey title ≠ "frequently_asked_questions" := noQuestions
    have log : plainKey title ≠ "change_log" := noLog
    simp [wordLimit, questions, log]

theorem sectionWarnings_eq (sections : List Section) :
    (sections.flatMap sectionWarning).map Warning.key =
      (sections.filter fun s => wordBound s.title < s.words).map fun s =>
        "trimmed_section_" ++ keyOfTitle s.title := by
  induction sections with
  | nil => rfl
  | cons s rest ih =>
    rw [List.flatMap_cons, List.map_append, ih]
    by_cases long : wordBound s.title < s.words
    · simp [sectionWarning, wordLimit_keyOfTitle, long]
    · simp [sectionWarning, wordLimit_keyOfTitle, long]

theorem readTitle_split (lines : List (List Char)) :
    lines = (lines.head?.filter isTitle).toList ++ (readTitle lines).2 := by
  cases lines with
  | nil => rfl
  | cons line rest => cases titled : isTitle line <;> simp [readTitle, titled, Option.filter_some]

/-- The lines of a readme are its title line, if it has one, some lines before the first heading,
and one block for each heading. The sections are the blocks with a title, in their order, and those
that are too long are warned of, in the same order and behind all other warnings. -/
theorem ofSource_outline (source stableVersion recommendedPhp : String) :
    let readme := ofSource source stableVersion recommendedPhp
    let lines := linesOf source.toList
    ∃ (before : List (List Char)) (blocks : List Block),
      lines = (lines.head?.filter isTitle).toList ++ (before ++ blocks.flatMap Block.lines) ∧
      (∀ line ∈ before, ¬IsHeading line) ∧ (∀ b ∈ blocks, b.Valid) ∧
      let sections := blocks.filter (·.title ≠ [])
      let long := sections.filter fun b => wordBound b.title < b.wordCount
      readme.sections = sections.map (keyOfTitle ·.title) ∧
      ∃ earlier, (∀ key ∈ earlier, ¬IsSectionKey key) ∧
        readme.warnings.map Warning.key =
          earlier ++ long.map ("trimmed_section_" ++ keyOfTitle ·.title) := by
  intro readme lines
  let body := (readTitle lines).2
  have told : readme.warnings.map Warning.key =
      raised (omissions readme.headers (paragraph body)) ++
        ((readOpening [] body).sections.flatMap sectionWarning).map Warning.key :=
    warnings_keys source.toList stableVersion recommendedPhp
  have sections : (readOpening [] body).sections =
      ((cut body).2.filter (·.title ≠ [])).map Block.toSection :=
    (readOpening_sections [] body).trans (sectionsFrom_cut none 0 body)
  have read : readme.sections = (readOpening [] body).sections.map (keyOfTitle ·.title) := rfl
  obtain ⟨before, blocks⟩ := cut_valid body
  refine ⟨(cut body).1, (cut body).2, ?_, before, blocks, ?_,
    raised (omissions readme.headers (paragraph body)), fun key early => ?_, ?_⟩
  · rw [cut_whole]
    exact readTitle_split lines
  · rw [read, sections, List.map_map]
    rfl
  · exact not_isSectionKey ((raised_sublist _).subset early)
  · rw [told, sections, sectionWarnings_eq, List.filter_map, List.map_map]
    rfl

end Readme

end PluginAudit
