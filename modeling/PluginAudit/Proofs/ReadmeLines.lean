import PluginAudit.Proofs.PaddedText
import PluginAudit.Readme.Section

/-!
The lines of which a readme is made, as they are written: a text between marks is read again
whatever marks it has in it, and so are the key and the value of a header.
-/

namespace PluginAudit.Readme

open Text

/-- A text between marks: `=== text ===`, or fewer or more of them. -/
def headline (marks : Nat) (text : List Char) : List Char :=
  List.replicate marks '=' ++ ' ' :: (text ++ ' ' :: List.replicate marks '=')

def headerLine (key value : List Char) : List Char := key ++ ':' :: ' ' :: value

variable {text key value : List Char} {marks : Nat} {c : Char}

theorem markedText_headline (some : text ≠ []) (trimmed : trim text = text) :
    markedText (headline (marks + 1) text) = text := by
  have start : trimStart (headline (marks + 1) text) =
      '=' :: (List.replicate marks '=' ++ ' ' :: (text ++ ' ' :: List.replicate (marks + 1) '=')) :=
    trimStart_cons (by decide)
  have body : (List.replicate marks '=' ++ ' ' ::
      (text ++ ' ' :: List.replicate (marks + 1) '=')).dropWhile (· == '=') =
        ' ' :: (text ++ ' ' :: List.replicate (marks + 1) '=') := by
    rw [List.dropWhile_append_of_pos]
    · rfl
    · intro c member
      rw [List.eq_of_mem_replicate member]
      rfl
  have inner : trimStart (' ' :: (text ++ ' ' :: List.replicate (marks + 1) '=')) =
      text ++ ' ' :: List.replicate (marks + 1) '=' := by
    obtain ⟨c, rest, rfl⟩ := List.exists_cons_of_ne_nil some
    exact (List.dropWhile_cons_of_pos (by decide)).trans
      (trimStart_cons (head_of_trimmed trimmed))
  have last : trimEnd (text ++ ' ' :: List.replicate (marks + 1) '=') =
      text ++ ' ' :: List.replicate (marks + 1) '=' := by
    rw [List.replicate_succ', List.append_cons, ← List.append_assoc]
    exact dropEndWhile_concat (by decide)
  -- The blank after the text ends the marks that are dropped, so those of the text itself stay.
  have unmarked : dropEndWhile isMark (text ++ ' ' :: List.replicate (marks + 1) '=') =
      text ++ [' '] := by
    rw [List.append_cons]
    refine (dropEndWhile_append fun c member => ?_).trans (dropEndWhile_concat (by decide))
    rw [List.eq_of_mem_replicate member]
    rfl
  have outer : trimEnd (text ++ [' ']) = text :=
    (dropEndWhile_append (List.all_eq_true.mp (by decide))).trans (trim_eq_self trimmed).2
  unfold markedText
  rw [start]
  simp only [body, inner, last, unmarked, outer]

theorem isHeading_headline (text : List Char) : isHeading (headline 2 text) = true := by
  have start : trimStart (headline 2 text) = headline 2 text := trimStart_cons (by decide)
  unfold isHeading
  rw [start]
  rfl

theorem isTitle_headline (text : List Char) : isTitle (headline (marks + 1) text) = true := by
  have start : trimStart (headline (marks + 1) text) = headline (marks + 1) text :=
    trimStart_cons (by decide)
  unfold isTitle
  rw [start]
  rfl

theorem isBlank_of_isAlpha (letter : c.isAlpha) : isBlank c = false := by
  rw [isAlpha_iff] at letter
  simp only [isBlank, Bool.or_eq_false_iff, Bool.and_eq_false_iff, decide_eq_false_iff_not,
    beq_eq_false_iff_ne]
  omega

theorem ne_of_isAlpha (letter : c.isAlpha) {d : Char} (other : d.isAlpha = false) : c ≠ d := by
  rintro rfl
  exact Bool.false_ne_true (other.symm.trans letter)

/-- A line that begins with a letter is no heading. -/
theorem isHeading_letter (letter : c.isAlpha) (rest : List Char) :
    isHeading (c :: rest) = false := by
  have start : trimStart (c :: rest) = c :: rest := trimStart_cons (isBlank_of_isAlpha letter)
  have noEquals : c ≠ '=' := ne_of_isAlpha letter (by decide)
  have noHash : c ≠ '#' := ne_of_isAlpha letter (by decide)
  unfold isHeading
  rw [start]
  split
  · rename_i same
    cases same
    exact absurd rfl noEquals
  · rename_i same
    cases same
    exact absurd rfl noHash
  · rfl

theorem allBlank_letter (letter : c.isAlpha) (rest : List Char) :
    allBlank (c :: rest) = false := by
  simp [allBlank, isBlank_of_isAlpha letter]

/-- A key of letters with blanks only inside, and a value, are read from the line of both. -/
theorem headerOf?_headerLine (chars : ∀ c ∈ key, isKeyChar c) (first : key.head?.any Char.isAlpha)
    (last : key.getLast?.any Char.isAlpha) (trimmed : trim value = value) :
    headerOf? (headerLine key value) = some (asciiLower key, value) := by
  cases key with
  | nil => cases first
  | cons c rest =>
    have letter : c.isAlpha := first
    have blank := isBlank_of_isAlpha letter
    have noStar : (c == '*') = false := beq_eq_false_iff_ne.mpr (ne_of_isAlpha letter (by decide))
    have start (more : List Char) : trimStart (c :: more) = c :: more := trimStart_cons blank
    have unstarred (more : List Char) : (c :: more).dropWhile (· == '*') = c :: more :=
      List.dropWhile_cons_of_neg (Bool.eq_false_iff.mp noStar)
    have taken : (headerLine (c :: rest) value).takeWhile isKeyChar = c :: rest := by
      rw [headerLine, List.takeWhile_append_of_pos chars, List.takeWhile_cons_of_neg (by decide),
        List.append_nil]
    have dropped : (headerLine (c :: rest) value).dropWhile isKeyChar = ':' :: ' ' :: value := by
      rw [headerLine, List.dropWhile_append_of_pos chars]
      rfl
    have whole : dropEndWhile (· == ' ') (c :: rest) = c :: rest := by
      rw [dropEndWhile_eq_rdropWhile, List.rdropWhile_eq_self_iff]
      intro some
      rw [List.getLast?_eq_some_getLast some] at last
      exact Bool.eq_false_iff.mp (beq_eq_false_iff_ne.mpr (ne_of_isAlpha last (by decide)))
    have colon : trimStart (':' :: ' ' :: value) = ':' :: ' ' :: value :=
      trimStart_cons (by decide)
    have valued : trim ((' ' :: value).dropWhile (· == '*')) = value :=
      trim_blank_cons (by decide) trimmed
    have line : headerLine (c :: rest) value = c :: (rest ++ ':' :: ' ' :: value) := rfl
    rw [line] at taken dropped ⊢
    simp only [headerOf?, start, unstarred, letter, taken, dropped, whole, colon, valued]
    rfl

theorem isBlank_mark (marked : isMark c = true) : isBlank c = false := by
  have either : c = '=' ∨ c = '#' := by simpa [isMark] using marked
  rcases either with rfl | rfl <;> decide

theorem isMark_blank (blank : isBlank c = true) : isMark c = false := by
  by_contra marked
  rw [isBlank_mark (Bool.not_eq_false _ ▸ marked)] at blank
  cases blank

theorem isHeading_start (line : List Char) : isHeading line =
    match trimStart line with
    | c :: d :: rest => isMark c && d == c && rest.head?.all (!isMark ·)
    | _ => false := by
  unfold isHeading
  split
  · rename_i rest start
    rw [start]
    rfl
  · rename_i rest start
    rw [start]
    rfl
  · rename_i noEquals noHash
    split
    · rename_i c d rest start
      refine (Bool.eq_false_iff.mpr fun heading => ?_).symm
      simp only [isMark, Bool.and_eq_true, Bool.or_eq_true, beq_iff_eq] at heading
      obtain ⟨⟨rfl | rfl, rfl⟩, -⟩ := heading
      · exact noEquals rest start
      · exact noHash rest start
    · rfl

theorem isHeading_padded {line line' : List Char} (padded : Padded line line') :
    isHeading line' = isHeading line := by
  have unmarked {c : Char} (blank : isBlank c = true) : isMark c = false := isMark_blank blank
  rw [isHeading_start, isHeading_start, trimStart, trimStart]
  rcases (padded.dropWhile isBlank).head with ⟨none, blank⟩ | ⟨c, rest, rest', first, first', tail⟩
  · rw [none]
    split
    · rename_i c d rest first
      rw [unmarked (blank c (by rw [first]; rfl))]
      rfl
    · rfl
  · rw [first, first']
    rcases tail.head with ⟨rfl, blank⟩ | ⟨d, more, more', rfl, rfl, last⟩
    · cases rest' with
      | nil => rfl
      | cons d more =>
        have blank := blank d rfl
        cases marked : isMark c with
        | false => simp [marked]
        | true =>
          have other : d ≠ c := by
            rintro rfl
            rw [unmarked blank] at marked
            cases marked
          simp [other]
    · dsimp only
      rcases last.head with ⟨rfl, blank⟩ | ⟨e, others, others', rfl, rfl, -⟩
      · cases more' with
        | nil => rfl
        | cons e others => simp [unmarked (blank e rfl)]
      · rfl

theorem isHeading_dropReturn (line : List Char) : isHeading (dropReturn line) = isHeading line :=
  (isHeading_padded (padded_dropReturn line)).symm

end PluginAudit.Readme
