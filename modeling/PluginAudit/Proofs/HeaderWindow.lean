import PluginAudit.Discovery
import PluginAudit.Proofs.Headers
import PluginAudit.Proofs.Utf8

/-!
The headers that are found when a plugin is looked for, and those of the whole text of its main
file. They are the same but for one case: if the limit leaves three bytes of a character of four,
the mark that is read in its place has just room, and may become part of a value.
-/

namespace PluginAudit

namespace Text

variable {mark x : Char} {cs : List Char} {p : Char → Bool}

theorem splitOnce_concat (other : x ≠ mark) :
    splitOnce mark (cs ++ [x]) = (splitOnce mark cs).map fun e => (e.1, e.2 ++ [x]) := by
  induction cs with
  | nil => simp [splitOnce, other]
  | cons c rest ih =>
    rw [List.cons_append, splitOnce, splitOnce, ih]
    split
    · rfl
    · cases splitOnce mark rest <;> rfl

theorem splitAt_concat (other : x ≠ mark) (cs : List Char) :
    ∃ earlier last, splitAt mark cs = earlier ++ [last] ∧
      splitAt mark (cs ++ [x]) = earlier ++ [last ++ [x]] := by
  induction cs with
  | nil => exact ⟨[], [], rfl, by simp [splitAt, other]⟩
  | cons c rest ih =>
    obtain ⟨earlier, last, split, longer⟩ := ih
    rw [List.cons_append, splitAt, splitAt, split, longer]
    by_cases marked : c = mark
    · exact ⟨[] :: earlier, last, by simp [marked], by simp [marked]⟩
    · cases earlier with
      | nil => exact ⟨[], c :: last, by simp [marked], by simp [marked]⟩
      | cons part parts => exact ⟨(c :: part) :: parts, last, by simp [marked], by simp [marked]⟩

theorem linesOfParts_concat (earlier : List (List Char)) (last : List Char) :
    linesOfParts (earlier ++ [last]) =
      earlier.map dropReturn ++ if last.isEmpty then [] else [last] :=
  linesOfParts_feeds earlier (List.cons_ne_nil last [])

theorem trim_concat_ne (kept : isBlank x = false) : trim (cs ++ [x]) ≠ trim cs := by
  have ended : ∀ body : List Char, trimEnd (body ++ [x]) = body ++ [x] := fun body =>
    dropEndWhile_concat kept
  have shorter : (trimEnd (trimStart cs)).length ≤ (trimStart cs).length :=
    (dropEndWhile_begins isBlank (trimStart cs)).length_le
  intro same
  have sizes := congrArg List.length same
  simp only [trim, trimStart, dropWhile_append_cons kept, ended, List.length_append,
    List.length_singleton] at sizes shorter
  omega

theorem trim_concat_ne_nil (kept : isBlank x = false) : trim (cs ++ [x]) ≠ [] := by
  have ended : ∀ body : List Char, trimEnd (body ++ [x]) = body ++ [x] := fun body =>
    dropEndWhile_concat kept
  simp [trim, trimStart, dropWhile_append_cons kept, ended]

end Text

namespace HeaderBlock

open Text

variable {headers : HeaderBlock} {line value : List Char} {name : String}

/-- Whether the limit leaves three bytes of a character of four. -/
def LeavesThree (source : List Char) : Prop :=
  takeBytes scanLimit source ≠ source ∧ byteSize (takeBytes scanLimit source) + 3 = scanLimit

def lastLine (text : List Char) : List Char := (splitAt '\n' text).getLast?.getD []

def earlierLines (text : List Char) : List (List Char) :=
  (splitAt '\n' text).dropLast.map dropReturn

/-- Whether the last line of a text gives a header a value that neither the comment nor the block
ends, and no line before it gives it one. -/
structure LeavesOpen (text : List Char) (name : String) (value : List Char) : Prop where
  written : ∃ key, splitOnce ':' (dropCommentMarks (lastLine text)) = some (key, value) ∧
    canonical? (trim key) = some name
  inComment : before "*/".toList value = value
  inBlock : before "?>".toList value = value
  first : (earlierLines text).findSome? (given? name) = none

theorem dropCommentMarks_concat (line : List Char) :
    dropCommentMarks (line ++ ['\uFFFD']) = dropCommentMarks line ++ ['\uFFFD'] := by
  have blanks : (line ++ ['\uFFFD']).dropWhile (fun c => c == ' ' || c == '\t') =
      line.dropWhile (fun c => c == ' ' || c == '\t') ++ ['\uFFFD'] :=
    dropWhile_append_cons (by decide)
  have tag (text : List Char) : after? "<?php".toList (text ++ ['\uFFFD']) =
      (after? "<?php".toList text).map (· ++ ['\uFFFD']) :=
    after?_concat (by decide)
  simp only [dropCommentMarks, blanks, tag]
  cases after? "<?php".toList (line.dropWhile fun c => c == ' ' || c == '\t') with
  | none => exact dropWhile_append_cons (by decide)
  | some rest => exact dropWhile_append_cons (by decide)

theorem cleanValue_open (inComment : before "*/".toList value = value)
    (inBlock : before "?>".toList value = value) :
    cleanValue value = trim value ∧
      cleanValue (value ++ ['\uFFFD']) = trim (value ++ ['\uFFFD']) := by
  have comment : before "*/".toList (value ++ ['\uFFFD']) = value ++ ['\uFFFD'] := by
    rw [before_concat (by decide) (by decide), if_pos inComment]
  have block : before "?>".toList (value ++ ['\uFFFD']) = value ++ ['\uFFFD'] := by
    rw [before_concat (by decide) (by decide), if_pos inBlock]
  constructor
  · rw [cleanValue, inComment, inBlock]
  · rw [cleanValue, comment, block]

theorem cleanValue_closed
    (closed : ¬(before "*/".toList value = value ∧ before "?>".toList value = value)) :
    cleanValue (value ++ ['\uFFFD']) = cleanValue value := by
  rw [cleanValue, cleanValue, before_concat (by decide) (by decide)]
  split
  · rename_i inComment
    have outside : before "?>".toList value ≠ value := fun inBlock => closed ⟨inComment, inBlock⟩
    rw [before_concat (by decide) (by decide), if_neg outside, inComment]
  · rfl

theorem ofLine?_concat (line : List Char) :
    ofLine? (line ++ ['\uFFFD']) = (splitOnce ':' (dropCommentMarks line)).bind fun e =>
      (canonical? (trim e.1)).map fun name => (name, cleanValue (e.2 ++ ['\uFFFD'])) := by
  rw [ofLine?, dropCommentMarks_concat, splitOnce_concat (by decide)]
  cases splitOnce ':' (dropCommentMarks line) <;> rfl

theorem addLine_eq_of_ofLine? {other : List Char} (same : ofLine? line = ofLine? other) :
    headers.addLine line = headers.addLine other := by
  unfold addLine
  rw [same]

theorem addLine_known (ascending : Entries.Ascending headers.values) {old : String}
    (there : headers.get? name = some old) {value : List Char}
    (read : ofLine? line = some (name, value)) : headers.addLine line = headers := by
  simp only [addLine, read]
  split
  · rfl
  · rw [ascending.putNew_eq_self there]

theorem ofLine?_eq (line : List Char) :
    ofLine? line = (splitOnce ':' (dropCommentMarks line)).bind fun e =>
      (canonical? (trim e.1)).map fun name => (name, cleanValue e.2) := by
  unfold ofLine?
  cases splitOnce ':' (dropCommentMarks line) <;> rfl

/-- What has been read when the last line begins. -/
def beforeLast (text : List Char) : HeaderBlock := (earlierLines text).foldl addLine ⟨[]⟩

theorem beforeLast_ascending (text : List Char) :
    Entries.Ascending (beforeLast text).values :=
  foldl_ascending List.Pairwise.nil _

theorem get?_beforeLast (text : List Char) (name : String) :
    (beforeLast text).get? name = (earlierLines text).findSome? (given? name) := by
  have read := @get?_foldl ⟨[]⟩ List.Pairwise.nil (earlierLines text) name
  simpa [beforeLast, get?] using read

/-- The last line counts even if it is empty, for then it gives no header. -/
theorem foldl_lines (text : List Char) :
    (lines text).foldl addLine ⟨[]⟩ = (beforeLast text).addLine (lastLine text) ∧
      (lines (text ++ ['\uFFFD'])).foldl addLine ⟨[]⟩ =
        (beforeLast text).addLine (lastLine text ++ ['\uFFFD']) := by
  obtain ⟨earlier, last, split, longer⟩ := @splitAt_concat '\n' '\uFFFD' (by decide) text
  have final : lastLine text = last := by simp [lastLine, split]
  have before : earlierLines text = earlier.map dropReturn := by simp [earlierLines, split]
  have short : (last ++ ['\uFFFD']).isEmpty = false := by simp
  rw [lines, lines, split, longer, linesOfParts_concat, linesOfParts_concat, short, final,
    beforeLast, before, List.foldl_append, List.foldl_append]
  refine ⟨?_, rfl⟩
  cases last with
  | nil => rfl
  | cons c rest => rfl

section LastLine

variable {text : List Char}

theorem LeavesOpen.read (leaves : LeavesOpen text name value) :
    ofLine? (lastLine text) = some (name, trim value) ∧
      ofLine? (lastLine text ++ ['\uFFFD']) = some (name, trim (value ++ ['\uFFFD'])) := by
  obtain ⟨key, split, known⟩ := leaves.written
  obtain ⟨short, long⟩ := cleanValue_open leaves.inComment leaves.inBlock
  rw [ofLine?_eq, ofLine?_concat, split]
  simp [known, short, long]

theorem LeavesOpen.given (leaves : LeavesOpen text name value) :
    given? name (lastLine text) = (if trim value = [] then none else some (.ofList (trim value))) ∧
      given? name (lastLine text ++ ['\uFFFD']) = some (.ofList (trim (value ++ ['\uFFFD']))) := by
  obtain ⟨short, long⟩ := leaves.read
  have some : trim (value ++ ['\uFFFD']) ≠ [] := trim_concat_ne_nil (by decide)
  constructor
  · by_cases empty : trim value = [] <;> simp [given?, short, empty]
  · simp [given?, long, some]

theorem get?_last (text line : List Char) (name : String) :
    ((beforeLast text).addLine line).get? name =
      ((earlierLines text).findSome? (given? name)).or (given? name line) := by
  rw [get?_addLine (beforeLast_ascending text), get?_beforeLast]

theorem leavesOpen_or_same (text : List Char) :
    (∃ name value, LeavesOpen text name value) ∨
      (beforeLast text).addLine (lastLine text ++ ['\uFFFD']) =
        (beforeLast text).addLine (lastLine text) := by
  cases split : splitOnce ':' (dropCommentMarks (lastLine text)) with
  | none =>
    refine .inr (addLine_eq_of_ofLine? ?_)
    rw [ofLine?_concat, ofLine?_eq, split]
    rfl
  | some entry =>
    obtain ⟨key, value⟩ := entry
    cases known : canonical? (trim key) with
    | none =>
      refine .inr (addLine_eq_of_ofLine? ?_)
      rw [ofLine?_concat, ofLine?_eq, split]
      simp [known]
    | some name =>
      by_cases unclosed : before "*/".toList value = value ∧ before "?>".toList value = value
      · obtain ⟨inComment, inBlock⟩ := unclosed
        cases first : (earlierLines text).findSome? (given? name) with
        | none => exact .inl ⟨name, value, ⟨key, split, known⟩, inComment, inBlock, first⟩
        | some old =>
          -- The value changes, but a line before has given the header its own.
          have there := (get?_beforeLast text name).trans first
          have ascending := beforeLast_ascending text
          have short : ofLine? (lastLine text) = some (name, cleanValue value) := by
            rw [ofLine?_eq, split]
            simp [known]
          have long : ofLine? (lastLine text ++ ['\uFFFD']) =
              some (name, cleanValue (value ++ ['\uFFFD'])) := by
            rw [ofLine?_concat, split]
            simp [known]
          rw [addLine_known ascending there short, addLine_known ascending there long]
          exact .inr rfl
      · -- What ends the value is before the mark.
        refine .inr (addLine_eq_of_ofLine? ?_)
        rw [ofLine?_concat, ofLine?_eq, split]
        simp [known, cleanValue_closed unclosed]

theorem addLine_concat_iff (text : List Char) :
    (beforeLast text).addLine (lastLine text ++ ['\uFFFD']) =
        (beforeLast text).addLine (lastLine text) ↔ ¬∃ name value, LeavesOpen text name value := by
  constructor
  · rintro same ⟨name, value, leaves⟩
    obtain ⟨short, long⟩ := leaves.given
    have values := congrArg (·.get? name) same
    simp only [get?_last, leaves.first, Option.none_or, short, long] at values
    split at values
    · cases values
    · exact trim_concat_ne (by decide) (String.ofList_injective (Option.some.inj values))
  · intro closed
    exact (leavesOpen_or_same text).resolve_left closed

theorem declaresPlugin_concat_iff (text : List Char) :
    ((beforeLast text).addLine (lastLine text ++ ['\uFFFD'])).declaresPlugin =
        ((beforeLast text).addLine (lastLine text)).declaresPlugin ↔
      ¬∃ value, LeavesOpen text "Plugin Name" value ∧ trim value = [] := by
  constructor
  · rintro same ⟨value, leaves, blank⟩
    obtain ⟨short, long⟩ := leaves.given
    simp only [declaresPlugin, name?, get?_last, leaves.first, Option.none_or, short, long,
      if_pos blank] at same
    cases same
  · intro named
    rcases leavesOpen_or_same text with ⟨name, value, leaves⟩ | same
    · obtain ⟨short, long⟩ := leaves.read
      simp only [declaresPlugin, name?, get?_last]
      by_cases other : name = "Plugin Name"
      · subst other
        have some : trim value ≠ [] := fun blank => named ⟨value, leaves, blank⟩
        obtain ⟨shortGiven, longGiven⟩ := leaves.given
        rw [shortGiven, longGiven, if_neg some]
        cases (earlierLines text).findSome? (given? "Plugin Name") <;> rfl
      · simp [given?, short, long, other]
    · rw [same]

end LastLine

/-- The mark that is read for a character that has been cut takes three bytes, so it stays within
the limit only if the character has left just as many. -/
theorem takeBytes_marked {source : List Char} (cut : splits scanLimit source) :
    takeBytes scanLimit (takeBytes scanLimit source ++ ['\uFFFD']) =
      takeBytes scanLimit source ++
        if byteSize (takeBytes scanLimit source) + 3 = scanLimit then ['\uFFFD'] else [] := by
  obtain ⟨room, short⟩ := cut
  have least := limit_le_of_cut short
  rw [takeBytes_append room.le]
  congr 1
  have size : Char.utf8Size '\uFFFD' = 3 := by decide
  by_cases three : byteSize (takeBytes scanLimit source) + 3 = scanLimit
  · rw [if_pos three, takeBytes, if_pos (by omega)]
    rfl
  · rw [if_neg three, takeBytes, if_neg (by omega)]

theorem ofLossy_three {source : List Char} (three : LeavesThree source) :
    ofChars (decodeLossy ((encode source).take scanLimit)) =
      (lines (takeBytes scanLimit source ++ ['\uFFFD'])).foldl addLine ⟨[]⟩ := by
  obtain ⟨short, size⟩ := three
  have cut : splits scanLimit source := ⟨by omega, short⟩
  rw [ofChars, decodeLossy_take, if_pos cut, takeBytes_marked cut, if_pos size]

theorem ofLossy_otherwise {source : List Char} (other : ¬LeavesThree source) :
    ofChars (decodeLossy ((encode source).take scanLimit)) = ofChars source := by
  have fits := takeBytes_of_fits (byteSize_takeBytes scanLimit source)
  rw [ofChars, ofChars, decodeLossy_take]
  by_cases cut : splits scanLimit source
  · have size : ¬byteSize (takeBytes scanLimit source) + 3 = scanLimit := fun size =>
      other ⟨cut.2, size⟩
    rw [if_pos cut, takeBytes_marked cut, if_neg size, List.append_nil]
  · rw [if_neg cut, List.append_nil, fits]

/-- The headers that are found when a plugin is looked for are those of the whole text, unless the
limit leaves three bytes of a character of four and the last line leaves a value open; and the
file is taken for a main file by the one just as by the other, unless that value is the plugin's
name and there is nothing else of it. -/
theorem found_eq_iff (source : List Char) :
    (ofChars (decodeLossy ((encode source).take scanLimit)) = ofChars source ↔
        ¬(LeavesThree source ∧
          ∃ name value, LeavesOpen (takeBytes scanLimit source) name value)) ∧
      (Discovery.declaresPlugin (encode source) = (ofChars source).declaresPlugin ↔
        ¬(LeavesThree source ∧ ∃ value,
          LeavesOpen (takeBytes scanLimit source) "Plugin Name" value ∧ trim value = [])) := by
  rw [Discovery.declaresPlugin]
  by_cases three : LeavesThree source
  · obtain ⟨short, marked⟩ := foldl_lines (takeBytes scanLimit source)
    rw [ofLossy_three three, marked, ofChars, short]
    simp only [three, true_and]
    exact ⟨addLine_concat_iff _, declaresPlugin_concat_iff _⟩
  · rw [ofLossy_otherwise three]
    simp [three]

/-- A line of letters, and a line in which the plugin's name is a character of four bytes. -/
def cutName (letters : Nat) : List Char :=
  List.replicate letters 'x' ++ "\nPlugin Name: 😀".toList

theorem byteSize_letters (n : Nat) : byteSize (List.replicate n 'x') = n := by
  have one : Char.utf8Size 'x' = 1 := by decide
  rw [byteSize_replicate, one, Nat.mul_one]

/-- If the name begins three bytes before the limit, nothing else is left of the second line. -/
theorem cutName_window {letters : Nat} (size : letters + 17 = scanLimit) :
    takeBytes scanLimit (cutName letters) =
      List.replicate letters 'x' ++ '\n' :: "Plugin Name: ".toList := by
  have taken := byteSize_letters letters
  have room : scanLimit - byteSize (List.replicate letters 'x') = 17 := by omega
  rw [cutName, takeBytes_append (by omega), room]
  rfl

theorem given?_replicate (letters : Nat) (name : String) :
    given? name (List.replicate letters 'x') = none := by
  have noColon (n : Nat) : splitOnce ':' (List.replicate n 'x') = none := by
    induction n with
    | zero => rfl
    | succ n ih => rw [List.replicate_succ, splitOnce, if_neg (by decide), ih]; rfl
  have kept : dropCommentMarks (List.replicate letters 'x') = List.replicate letters 'x' := by
    cases letters with
    | zero => rfl
    | succ n => rfl
  rw [given?, ofLine?_eq, kept, noColon]
  rfl

theorem cutName_leaves {letters : Nat} (size : letters + 17 = scanLimit) :
    LeavesThree (cutName letters) ∧
      LeavesOpen (takeBytes scanLimit (cutName letters)) "Plugin Name" [' '] := by
  have window := cutName_window size
  have parts : splitAt '\n' (takeBytes scanLimit (cutName letters)) =
      [List.replicate letters 'x', "Plugin Name: ".toList] := by
    rw [window, splitAt_append (by simp [List.mem_replicate])]
    rfl
  have last : lastLine (takeBytes scanLimit (cutName letters)) = "Plugin Name: ".toList := by
    rw [lastLine, parts]
    rfl
  have earlier : earlierLines (takeBytes scanLimit (cutName letters)) =
      [dropReturn (List.replicate letters 'x')] := by
    rw [earlierLines, parts]
    rfl
  have whole : dropReturn (List.replicate letters 'x') = List.replicate letters 'x' :=
    dropReturn_of_last (by simp [List.getLast?_replicate])
  refine ⟨⟨?_, ?_⟩, ⟨"Plugin Name".toList, ?_, by decide⟩, by decide, by decide, ?_⟩
  · rw [window, cutName, ne_eq, List.append_cancel_left_eq]
    decide
  · have tail : byteSize ('\n' :: "Plugin Name: ".toList) = 14 := by decide
    rw [window, byteSize_append, byteSize_letters, tail]
    omega
  · rw [last]
    decide
  · rw [earlier, whole, List.findSome?_cons, given?_replicate]
    rfl

/-- Such a file is taken for a main file, though no name is read from its text. -/
theorem cutName_found :
    ofChars (decodeLossy ((encode (cutName 8175)).take scanLimit)) ≠ ofChars (cutName 8175) ∧
      Discovery.declaresPlugin (encode (cutName 8175)) ≠
        (ofChars (cutName 8175)).declaresPlugin := by
  obtain ⟨three, leaves⟩ := @cutName_leaves 8175 (by decide)
  obtain ⟨headers, named⟩ := found_eq_iff (cutName 8175)
  exact ⟨fun same => headers.mp same ⟨three, _, _, leaves⟩,
    fun same => named.mp same ⟨three, _, leaves, by decide⟩⟩

end HeaderBlock

end PluginAudit
