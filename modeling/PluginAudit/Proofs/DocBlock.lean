import PluginAudit.Proofs.Headers
import PluginAudit.Proofs.ReadmeLines

/-!
Headers as they are written in a comment: marks, a name in any case, a colon and a value. The
value is read as it has been written.
-/

namespace PluginAudit

namespace Text

variable {a b : Char} {gap rest : List Char}

theorem contains_append (pattern more : List Char) :
    contains pattern (pattern ++ more) = true := by
  have begins : startsWith pattern (pattern ++ more) = true :=
    startsWith_iff.mpr (List.prefix_append _ _)
  cases whole : pattern ++ more with
  | nil =>
    rw [(List.append_eq_nil_iff.mp whole).1]
    rfl
  | cons c rest =>
    rw [whole] at begins
    rw [contains, begins, Bool.true_or]

theorem before_eq_self {pattern text : List Char} (none : ¬pattern <:+: text) :
    before pattern text = text := by
  induction text with
  | nil => rfl
  | cons c more ih =>
    rw [List.infix_cons_iff, not_or, ← startsWith_iff] at none
    rw [before, if_neg none.1, ih none.2]

/-- White space around a text makes no pair of other characters in it. -/
theorem infix_padded (solid : isBlank a = false) (solid' : isBlank b = false)
    (blanks : ∀ c ∈ gap, isBlank c) (blanks' : ∀ c ∈ rest, isBlank c)
    (found : [a, b] <:+: gap ++ value ++ rest) : [a, b] <:+: value := by
  have foreign {c x : Char} (blank : isBlank c) (solid : isBlank x = false) : x ≠ c := by
    rintro rfl
    exact Bool.false_ne_true (solid.symm.trans blank)
  have left : [a, b] <:+: value ++ rest := by
    rw [List.append_assoc] at found
    induction gap with
    | nil => exact found
    | cons c more ih =>
      rcases List.infix_cons_iff.mp found with here | later
      · exact absurd (List.cons_prefix_cons.mp here).1
          (foreign (blanks c List.mem_cons_self) solid)
      · exact ih (fun d member => blanks d (List.mem_cons_of_mem _ member)) later
  -- Now from the end, where the pair's second character would have to be white space.
  clear found
  induction rest using List.reverseRecOn with
  | nil => simpa using left
  | append_singleton more c ih =>
    rw [← List.append_assoc, List.infix_concat_iff] at left
    rcases left with here | earlier
    · rcases List.suffix_concat_iff.mp here with none | ⟨begins, split, -⟩
      · cases none
      · have last := congrArg List.getLast? split
        rw [List.getLast?_concat] at last
        exact absurd (Option.some.inj last) (foreign (blanks' c (by simp)) solid')
    · exact ih (fun d member => blanks' d (List.mem_append_left _ member)) earlier

end Text

namespace HeaderBlock

open Text

variable {name : String} {key gap value rest marks line : List Char}

/-- A line that gives a header its value: the name behind comment marks, in any case, a colon, and
the value with white space around it. -/
def Writes (name : String) (value line : List Char) : Prop :=
  ∃ marks key gap rest, line = marks ++ key ++ ':' :: (gap ++ value ++ rest) ∧
    (∀ c ∈ marks, isCommentMark c) ∧ sameIgnoringCase name.toList key ∧
    (∀ c ∈ gap, isBlank c) ∧ ∀ c ∈ rest, isBlank c

/-- What can be the value of a header in a comment. -/
structure IsValue (value : List Char) : Prop where
  some : value ≠ []
  trimmed : trim value = value
  oneLine : '\n' ∉ value
  inComment : ¬"*/".toList <:+: value
  inBlock : ¬"?>".toList <:+: value

theorem cleanValue_padded (valid : IsValue value) (blanks : ∀ c ∈ gap, isBlank c)
    (blanks' : ∀ c ∈ rest, isBlank c) : cleanValue (gap ++ value ++ rest) = value := by
  have comment : before "*/".toList (gap ++ value ++ rest) = gap ++ value ++ rest :=
    before_eq_self fun found =>
      valid.inComment (infix_padded (by decide) (by decide) blanks blanks' found)
  have block : before "?>".toList (gap ++ value ++ rest) = gap ++ value ++ rest :=
    before_eq_self fun found =>
      valid.inBlock (infix_padded (by decide) (by decide) blanks blanks' found)
  rw [cleanValue, comment, block, trim_padded blanks blanks' valid.some valid.trimmed]

/-- The name of a header in any case has letters at its ends and no colon. -/
theorem key_shape (listed : name ∈ known) (same : sameIgnoringCase name.toList key) :
    key.head?.any Char.isAlpha ∧ key.getLast?.any Char.isAlpha ∧ ':' ∉ key := by
  have lower : asciiLower name.toList = asciiLower key := beq_iff_eq.mp same
  have letter {c : Char} (lowered : c.toLower.isAlpha) : c.isAlpha := by
    rw [isAlpha_iff] at lowered ⊢
    rcases toLower_cases c with kept | ⟨low, high, -⟩
    · rwa [kept] at lowered
    · omega
  have ends : ∀ n ∈ known, (asciiLower n.toList).head?.any Char.isAlpha ∧
      (asciiLower n.toList).getLast?.any Char.isAlpha ∧ ':' ∉ asciiLower n.toList := by decide
  obtain ⟨first, last, noColon⟩ := ends name listed
  rw [lower] at first last noColon
  refine ⟨?_, ?_, fun member => noColon (List.mem_map_of_mem member)⟩
  · cases key with
    | nil => cases first
    | cons c more => exact letter first
  · rw [asciiLower, List.getLast?_map] at last
    cases ended : key.getLast? with
    | none =>
      rw [ended] at last
      cases last
    | some c =>
      rw [ended] at last
      exact letter last

theorem isCommentMark_letter {c : Char} (letter : c.isAlpha) : isCommentMark c = false := by
  have other {d : Char} (plain : d.isAlpha = false) : (c == d) = false :=
    beq_eq_false_iff_ne.mpr (Readme.ne_of_isAlpha letter plain)
  simp [isCommentMark, other]

theorem dropCommentMarks_marks {c : Char} (dropped : ∀ d ∈ marks, isCommentMark d)
    (letter : c.isAlpha) (more : List Char) :
    dropCommentMarks (marks ++ c :: more) = c :: more := by
  have first := isCommentMark_letter letter
  have gap : (c == ' ' || c == '\t') = false := by
    have mark := first
    simp only [isCommentMark, Bool.or_eq_false_iff] at mark
    simp [mark]
  have noGap : (marks ++ c :: more).dropWhile (fun d => d == ' ' || d == '\t') =
      marks.dropWhile (fun d => d == ' ' || d == '\t') ++ c :: more := dropWhile_append_cons gap
  have still : ∀ d ∈ marks.dropWhile (fun d => d == ' ' || d == '\t'), isCommentMark d :=
    fun d member => dropped d ((List.dropWhile_suffix _).subset member)
  -- What is left of the marks cannot begin the opening tag, for `<` is none of them.
  have noTag : after? "<?php".toList
      (marks.dropWhile (fun d => d == ' ' || d == '\t') ++ c :: more) = none := by
    cases begins : marks.dropWhile (fun d => d == ' ' || d == '\t') with
    | nil => exact if_neg (Readme.ne_of_isAlpha letter (by decide)).symm
    | cons d rest =>
      rw [begins] at still
      refine if_neg ?_
      rintro rfl
      exact absurd (still _ List.mem_cons_self) (by decide)
  rw [dropCommentMarks, noGap, noTag, Option.getD_none, List.dropWhile_append_of_pos still,
    List.dropWhile_cons_of_neg (Bool.eq_false_iff.mp first)]

theorem trim_letters (first : key.head?.any Char.isAlpha) (last : key.getLast?.any Char.isAlpha) :
    trim key = key := by
  have start : trimStart key = key := by
    cases key with
    | nil => cases first
    | cons c more => exact trimStart_cons (Readme.isBlank_of_isAlpha first)
  rcases List.eq_nil_or_concat key with rfl | ⟨more, c, rfl⟩
  · cases first
  · rw [List.concat_eq_append] at start last ⊢
    rw [List.getLast?_concat] at last
    rw [trim, start]
    exact dropEndWhile_concat (Readme.isBlank_of_isAlpha last)

theorem canonical?_same (listed : name ∈ known) (same : sameIgnoringCase name.toList key) :
    canonical? key = some name := by
  have lower : asciiLower name.toList = asciiLower key := beq_iff_eq.mp same
  have itself : ∀ n ∈ known, canonical? n.toList = some n := by decide
  rw [← itself name listed]
  simp only [canonical?, sameIgnoringCase, lower]

theorem given?_writes (listed : name ∈ known) (valid : IsValue value)
    (writes : Writes name value line) : given? name line = some (.ofList value) := by
  obtain ⟨marks, key, gap, rest, rfl, dropped, same, blanks, blanks'⟩ := writes
  obtain ⟨first, last, noColon⟩ := key_shape listed same
  have parts : splitOnce ':' (dropCommentMarks (marks ++ key ++ ':' :: (gap ++ value ++ rest))) =
      some (key, gap ++ value ++ rest) := by
    cases key with
    | nil => cases first
    | cons c more =>
      rw [List.append_assoc, List.cons_append, dropCommentMarks_marks dropped first]
      exact splitOnce_eq_some_iff.mpr ⟨rfl, noColon⟩
  rw [given?, ofLine?, parts]
  simp only [trim_letters first last, canonical?_same listed same, Option.map_some,
    cleanValue_padded valid blanks blanks']
  simp [valid.some]

/-- A file declares a header if, within the part that is read, one of its lines gives the header
its value and no line before it does. -/
def Declares (source : List Char) (name : String) (value : List Char) : Prop :=
  ∃ before line after, lines (takeBytes scanLimit source) = before ++ line :: after ∧
    (∀ earlier ∈ before, given? name earlier = none) ∧ Writes name value line

theorem get?_of_declares {source : List Char} (listed : name ∈ known) (valid : IsValue value)
    (declares : Declares source name value) :
    (ofChars source).get? name = some (.ofList value) := by
  obtain ⟨before, line, after, split, none, writes⟩ := declares
  have earlier : before.findSome? (given? name) = .none := List.findSome?_eq_none_iff.mpr none
  rw [get?_ofChars, split, List.findSome?_append, earlier, Option.none_or, List.findSome?_cons,
    given?_writes listed valid writes]

end HeaderBlock

end PluginAudit
