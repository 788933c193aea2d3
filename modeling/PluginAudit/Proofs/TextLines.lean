import Mathlib.Data.List.DropRight
import PluginAudit.Text.Ascii
import PluginAudit.Text.Blank
import PluginAudit.Text.Lines

/-!
Texts on one line and the lines of a text. A text that has been trimmed begins and ends with
characters that are no white space; lines that are joined by line feeds are found again.
-/

namespace PluginAudit.Text

variable {p : Char → Bool} {cs more pattern gap value rest : List Char} {c mark x : Char}

theorem dropEndWhile_eq_rdropWhile (p : Char → Bool) (cs : List Char) :
    dropEndWhile p cs = cs.rdropWhile p := by
  induction cs with
  | nil => rfl
  | cons c rest ih =>
    rw [dropEndWhile, ih]
    simp only [List.rdropWhile, List.reverse_cons, List.dropWhile_append]
    cases rest.reverse.dropWhile p with
    | nil => by_cases drops : p c <;> simp [drops]
    | cons d others =>
      cases reversed : (d :: others).reverse with
      | nil => simp at reversed
      | cons e more => simp [← reversed]

theorem dropEndWhile_append (dropped : ∀ c ∈ more, p c = true) :
    dropEndWhile p (cs ++ more) = dropEndWhile p cs := by
  have all : more.reverse.dropWhile p = [] := by
    rw [List.dropWhile_eq_nil_iff]
    exact fun c member => dropped c (List.mem_reverse.mp member)
  rw [dropEndWhile_eq_rdropWhile, dropEndWhile_eq_rdropWhile, List.rdropWhile, List.reverse_append,
    List.dropWhile_append, all]
  rfl

theorem dropEndWhile_concat (kept : p c = false) : dropEndWhile p (cs ++ [c]) = cs ++ [c] := by
  rw [dropEndWhile_eq_rdropWhile]
  exact List.rdropWhile_concat_neg p cs c (Bool.eq_false_iff.mp kept)

theorem dropWhile_append_cons (kept : p c = false) :
    (cs ++ c :: more).dropWhile p = cs.dropWhile p ++ c :: more := by
  rw [List.dropWhile_append]
  cases rest : cs.dropWhile p with
  | nil => simp [kept]
  | cons d rest => rfl

theorem dropEndWhile_begins (p : Char → Bool) (cs : List Char) : dropEndWhile p cs <+: cs := by
  rw [dropEndWhile_eq_rdropWhile]
  exact List.rdropWhile_prefix p cs

theorem dropEndWhile_split (p : Char → Bool) (cs : List Char) :
    ∃ ending, cs = dropEndWhile p cs ++ ending ∧ ∀ c ∈ ending, p c = true := by
  refine ⟨cs.rtakeWhile p, ?_, fun c member => List.mem_rtakeWhile_imp member⟩
  rw [dropEndWhile_eq_rdropWhile, List.rdropWhile_append_rtakeWhile]

theorem trimStart_cons (kept : isBlank c = false) : trimStart (c :: cs) = c :: cs :=
  List.dropWhile_cons_of_neg (Bool.eq_false_iff.mp kept)

/-- A text that is left as it is by trimming has nothing to be trimmed at either end. -/
theorem trim_eq_self (trimmed : trim cs = cs) : trimStart cs = cs ∧ trimEnd cs = cs := by
  have ending : (trimEnd (trimStart cs)).length ≤ (trimStart cs).length :=
    (dropEndWhile_begins isBlank (trimStart cs)).length_le
  have start : trimStart cs <:+ cs := List.dropWhile_suffix _
  have whole : (trimEnd (trimStart cs)).length = cs.length := congrArg List.length trimmed
  have begins : trimStart cs = cs := start.eq_of_length_le (by omega)
  refine ⟨begins, ?_⟩
  rw [trim, begins] at trimmed
  exact trimmed

theorem head_of_trimmed (trimmed : trim (c :: cs) = c :: cs) : isBlank c = false := by
  have start := (trim_eq_self trimmed).1
  by_contra blank
  rw [Bool.not_eq_false] at blank
  rw [trimStart, List.dropWhile_cons_of_pos blank] at start
  have shorter := (List.dropWhile_suffix (l := cs) isBlank).length_le
  have same := congrArg List.length start
  simp only [List.length_cons] at same
  omega

theorem trim_blank_cons (blank : isBlank c = true) (trimmed : trim cs = cs) :
    trim (c :: cs) = cs := by
  have start : trimStart (c :: cs) = trimStart cs := List.dropWhile_cons_of_pos blank
  rw [trim, start]
  exact trimmed

theorem dropReturn_cases (cs : List Char) : dropReturn cs = cs ∨ cs = dropReturn cs ++ ['\r'] := by
  fun_induction dropReturn cs with
  | case1 => exact .inl rfl
  | case2 => exact .inr rfl
  | case3 c rest last ih =>
    rcases ih with same | ended
    · exact .inl (congrArg (c :: ·) same)
    · exact .inr (congrArg (c :: ·) ended)

theorem dropReturn_begins (cs : List Char) : dropReturn cs <+: cs := by
  rcases dropReturn_cases cs with same | ended
  · exact ⟨[], by rw [same, List.append_nil]⟩
  · exact ⟨_, ended.symm⟩

theorem dropReturn_of_last (last : cs.getLast? ≠ some '\r') : dropReturn cs = cs := by
  rcases dropReturn_cases cs with same | ended
  · exact same
  · refine absurd ?_ last
    rw [ended]
    exact List.getLast?_concat

/-- Only blanks are cut from a text. -/
theorem trim_append (cs : List Char) : ∃ before after, cs = before ++ trim cs ++ after ∧
    (∀ c ∈ before, isBlank c) ∧ ∀ c ∈ after, isBlank c := by
  refine ⟨cs.takeWhile isBlank, (trimStart cs).rtakeWhile isBlank, ?_,
    fun c member => List.mem_takeWhile_imp member, fun c member => List.mem_rtakeWhile_imp member⟩
  rw [trim, trimEnd, dropEndWhile_eq_rdropWhile, List.append_assoc,
    List.rdropWhile_append_rtakeWhile]
  exact List.takeWhile_append_dropWhile.symm

theorem trim_last (cs : List Char) : ∀ c ∈ (trim cs).getLast?, isBlank c = false := by
  intro c last
  rw [trim, trimEnd, dropEndWhile_eq_rdropWhile] at last
  obtain ⟨some, same⟩ := List.mem_getLast?_eq_getLast last
  rw [same]
  exact Bool.eq_false_iff.mpr (List.rdropWhile_last_not isBlank _ some)

/-- A text between two characters that are no blanks has nothing to be trimmed. -/
theorem trim_between {d : Char} (first : isBlank c = false) (last : isBlank d = false) :
    trim (c :: (cs ++ [d])) = c :: (cs ++ [d]) := by
  rw [trim, trimStart_cons first]
  exact @dropEndWhile_concat isBlank (c :: cs) d last

theorem last_of_trimmed (trimmed : trim cs = cs) :
    ∀ c, cs.getLast? = some c → isBlank c = false := fun c last =>
  trim_last cs c (by rw [trimmed]; exact last)

theorem trim_padded (blanks : ∀ c ∈ gap, isBlank c) (blanks' : ∀ c ∈ rest, isBlank c)
    (some : value ≠ []) (trimmed : trim value = value) : trim (gap ++ value ++ rest) = value := by
  obtain ⟨c, more, rfl⟩ := List.exists_cons_of_ne_nil some
  have start : trimStart (gap ++ (c :: more) ++ rest) = (c :: more) ++ rest := by
    rw [trimStart, List.append_assoc, List.dropWhile_append_of_pos blanks]
    exact trimStart_cons (head_of_trimmed trimmed)
  rw [trim, start]
  exact (dropEndWhile_append blanks').trans (trim_eq_self trimmed).2

theorem last_ne_return (trimmed : trim cs = cs) : cs.getLast? ≠ some '\r' := fun last =>
  absurd (last_of_trimmed trimmed _ last) (by decide)

theorem isAlpha_iff (c : Char) :
    c.isAlpha ↔ 65 ≤ c.toNat ∧ c.toNat ≤ 90 ∨ 97 ≤ c.toNat ∧ c.toNat ≤ 122 := by
  have upper : c.isUpper ↔ 65 ≤ c.toNat ∧ c.toNat ≤ 90 := decide_eq_true_iff
  have lower : c.isLower ↔ 97 ≤ c.toNat ∧ c.toNat ≤ 122 :=
    Bool.and_eq_true_iff.trans (and_congr decide_eq_true_iff decide_eq_true_iff)
  change (c.isUpper || c.isLower) = true ↔ _
  rw [Bool.or_eq_true, upper, lower]

theorem isDigit_iff (c : Char) : c.isDigit ↔ 48 ≤ c.toNat ∧ c.toNat ≤ 57 := by
  simp [Char.isDigit, UInt32.le_iff_toNat_le, ← Char.toNat_val]

theorem toNat_ofNat {n : Nat} (valid : n.isValidChar) : (Char.ofNat n).toNat = n := by
  have char : Char.ofNat n = Char.ofNatAux n valid := dif_pos valid
  rw [char]
  rfl

theorem startsWith_iff {pattern text : List Char} :
    startsWith pattern text ↔ pattern <+: text := by
  induction pattern generalizing text with
  | nil => simp [startsWith, after?]
  | cons p ps ih =>
    cases text with
    | nil => simp [startsWith, after?]
    | cons c cs =>
      by_cases same : p = c
      · have tail : startsWith (p :: ps) (c :: cs) = startsWith ps cs := by
          simp [startsWith, after?, same]
        rw [tail, ih, same, List.cons_prefix_cons]
        simp
      · simp [startsWith, after?, same]

theorem after?_concat (foreign : x ∉ pattern) :
    after? pattern (cs ++ [x]) = (after? pattern cs).map (· ++ [x]) := by
  induction pattern generalizing cs with
  | nil => rfl
  | cons c rest ih =>
    obtain ⟨other, later⟩ := List.ne_and_not_mem_of_not_mem_cons foreign
    cases cs with
    | nil => simp [after?, other.symm]
    | cons d more =>
      rw [List.cons_append, after?, after?]
      split
      · exact ih later
      · rfl

theorem before_concat (some : pattern ≠ []) (foreign : x ∉ pattern) :
    before pattern (cs ++ [x]) =
      if before pattern cs = cs then cs ++ [x] else before pattern cs := by
  have starts (cs : List Char) : startsWith pattern (cs ++ [x]) = startsWith pattern cs := by
    simp [startsWith, after?_concat foreign]
  induction cs with
  | nil =>
    have blank : startsWith pattern [x] = false := by
      rw [← List.nil_append [x], starts]
      cases pattern with
      | nil => exact absurd rfl some
      | cons c rest => rfl
    simp [before, blank]
  | cons c rest ih =>
    have same := starts (c :: rest)
    simp only [List.cons_append] at same ⊢
    rw [before, before, same, ih]
    split
    · simp
    · by_cases whole : before pattern rest = rest <;> simp [whole]

theorem splitOnce_eq_some_iff {mark : Char} {cs first rest : List Char} :
    splitOnce mark cs = some (first, rest) ↔ cs = first ++ mark :: rest ∧ mark ∉ first := by
  induction cs generalizing first with
  | nil => simp [splitOnce]
  | cons c more ih =>
    rw [splitOnce]
    by_cases here : c = mark
    · subst here
      cases first with
      | nil => simp
      | cons d later => simp_all
    · rw [if_neg here]
      cases first with
      | nil => simp [here]
      | cons d later =>
        rw [Option.map_eq_some_iff]
        constructor
        · rintro ⟨⟨a, b⟩, found, same⟩
          cases same
          obtain ⟨rfl, none⟩ := ih.mp found
          exact ⟨rfl, List.not_mem_cons_of_ne_of_not_mem (Ne.symm here) none⟩
        · rintro ⟨written, none⟩
          obtain ⟨rfl, rfl⟩ := List.cons.inj written
          exact ⟨(later, rest), ih.mpr ⟨rfl, (List.ne_and_not_mem_of_not_mem_cons none).2⟩, rfl⟩

theorem splitAt_ne_nil (mark : Char) (cs : List Char) : splitAt mark cs ≠ [] := by
  cases cs with
  | nil => exact List.cons_ne_nil _ _
  | cons c rest =>
    rw [splitAt]
    split
    · exact List.cons_ne_nil _ _
    · split <;> exact List.cons_ne_nil _ _

theorem splitAt_line (line : mark ∉ cs) : splitAt mark cs = [cs] := by
  induction cs with
  | nil => rfl
  | cons c rest ih =>
    obtain ⟨other, later⟩ := List.ne_and_not_mem_of_not_mem_cons line
    rw [splitAt, if_neg other.symm, ih later]

theorem splitAt_marked (first rest : List Char) :
    splitAt mark (first ++ mark :: rest) = splitAt mark first ++ splitAt mark rest := by
  induction first with
  | nil => simp [splitAt]
  | cons c first ih =>
    rw [List.cons_append, splitAt, splitAt, ih]
    split
    · rfl
    · obtain ⟨part, parts, split⟩ := List.exists_cons_of_ne_nil (splitAt_ne_nil mark first)
      rw [split]
      rfl

theorem splitAt_append (line : mark ∉ cs) (rest : List Char) :
    splitAt mark (cs ++ mark :: rest) = cs :: splitAt mark rest := by
  rw [splitAt_marked, splitAt_line line, List.singleton_append]

theorem splitAt_joinWith {parts : List (List Char)} (some : parts ≠ [])
    (lines : ∀ part ∈ parts, mark ∉ part) : splitAt mark (joinWith [mark] parts) = parts := by
  induction parts with
  | nil => exact absurd rfl some
  | cons part rest ih =>
    have first := lines part List.mem_cons_self
    cases rest with
    | nil => exact splitAt_line first
    | cons next others =>
      have later := ih (List.cons_ne_nil _ _) fun q member =>
        lines q (List.mem_cons_of_mem _ member)
      have joined : joinWith [mark] (part :: next :: others) =
          part ++ mark :: joinWith [mark] (next :: others) := by
        simp [joinWith]
      rw [joined, splitAt_append first, later]

theorem joinWith_cons (mark : Char) (part : List Char) (parts : List (List Char)) :
    joinWith [mark] (part :: parts) = part ++ parts.flatMap (mark :: ·) := by
  induction parts generalizing part with
  | nil => simp [joinWith]
  | cons next rest ih => simp [joinWith, ih]

/-- The parts of a text make up the text again. -/
theorem joinWith_splitAt (mark : Char) (cs : List Char) :
    joinWith [mark] (splitAt mark cs) = cs := by
  induction cs with
  | nil => rfl
  | cons c rest ih =>
    obtain ⟨part, parts, split⟩ := List.exists_cons_of_ne_nil (splitAt_ne_nil mark rest)
    rw [split, joinWith_cons] at ih
    rw [splitAt, split]
    split
    · rename_i same
      rw [joinWith_cons, List.flatMap_cons, List.cons_append, ih, same]
      rfl
    · rw [joinWith_cons, List.cons_append, ih]

theorem not_mem_of_mem_splitAt {part : List Char} (member : part ∈ splitAt mark cs) :
    mark ∉ part := by
  induction cs generalizing part with
  | nil =>
    rw [List.mem_singleton.mp member]
    exact List.not_mem_nil
  | cons c rest ih =>
    obtain ⟨first, others, parted⟩ := List.exists_cons_of_ne_nil (splitAt_ne_nil mark rest)
    rw [parted] at ih
    rw [splitAt, parted] at member
    split at member
    · rcases List.mem_cons.mp member with rfl | later
      · exact List.not_mem_nil
      · exact ih later
    · rename_i other
      rcases List.mem_cons.mp member with rfl | later
      · exact List.not_mem_cons_of_ne_of_not_mem (Ne.symm other) (ih List.mem_cons_self)
      · exact ih (List.mem_cons_of_mem _ later)

theorem toList_intercalate (separator : String) (texts : List String) :
    (String.intercalate separator texts).toList =
      joinWith separator.toList (texts.map String.toList) := by
  induction texts with
  | nil => rfl
  | cons first rest ih =>
    cases rest with
    | nil => rw [String.intercalate_singleton]; rfl
    | cons second others =>
      rw [String.intercalate_cons_cons, String.toList_append, String.toList_append, ih,
        List.append_assoc]
      simp [joinWith]

theorem mem_linesOfParts {parts : List (List Char)} {line : List Char}
    (member : line ∈ linesOfParts parts) :
    ∃ part ∈ parts, line = part ∨ line = dropReturn part := by
  induction parts with
  | nil => cases member
  | cons part rest ih =>
    cases rest with
    | nil =>
      simp only [linesOfParts] at member
      split at member
      · cases member
      · exact ⟨part, List.mem_cons_self, .inl (List.mem_singleton.mp member)⟩
    | cons next others =>
      rcases List.mem_cons.mp member with here | later
      · exact ⟨part, List.mem_cons_self, .inr here⟩
      · obtain ⟨q, there, same⟩ := ih later
        exact ⟨q, List.mem_cons_of_mem _ there, same⟩

/-- Lines end with line feeds, except that the last one need not. -/
theorem linesOfParts_feeds (parts : List (List Char)) {rest : List (List Char)} (some : rest ≠ []) :
    linesOfParts (parts ++ rest) = parts.map dropReturn ++ linesOfParts rest := by
  induction parts with
  | nil => rfl
  | cons part others ih =>
    obtain ⟨next, more, written⟩ := List.exists_cons_of_ne_nil
      (List.append_ne_nil_of_right_ne_nil others some)
    rw [List.cons_append, written, linesOfParts, ← written, ih]
    rfl

theorem linesOfParts_append {parts rest : List (List Char)}
    (kept : ∀ part ∈ parts, dropReturn part = part) (some : rest ≠ []) :
    linesOfParts (parts ++ rest) = parts ++ linesOfParts rest := by
  have whole : parts.map dropReturn = parts := (List.map_congr_left kept).trans (List.map_id' parts)
  rw [linesOfParts_feeds parts some, whole]

theorem lines_feed (first rest : List Char) :
    lines (first ++ '\n' :: rest) = (splitAt '\n' first).map dropReturn ++ lines rest := by
  rw [lines, splitAt_marked, linesOfParts_feeds _ (splitAt_ne_nil '\n' rest), lines]

/-- Behind a line feed the lines go on as those of the text there. -/
theorem lines_append (ended : cs.getLast? = some '\n') (rest : List Char) :
    lines (cs ++ rest) = lines cs ++ lines rest := by
  obtain ⟨first, rfl⟩ := List.getLast?_eq_some_iff.mp ended
  rw [List.append_assoc, List.singleton_append, lines_feed, lines_feed, List.append_assoc]
  rfl

end PluginAudit.Text
