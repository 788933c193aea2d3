import PluginAudit.Proofs.DocBlock
import PluginAudit.Proofs.HeaderWindow

/-!
The entries of a header block. Each comes from the first line that gives the header a value, in
whatever spelling of the header's name, and the value is one that can stand in a comment. Only the
beginning of a text counts, and what is written below it takes nothing away.
-/

namespace PluginAudit

namespace Text

variable {cs ds pattern : List Char} {limit : Nat}

theorem trim_trim (cs : List Char) : trim (trim cs) = trim cs := by
  have ending := trim_last cs
  have start : ∀ c ∈ (trim cs).head?, isBlank c = false := by
    obtain ⟨cut, split⟩ := dropEndWhile_begins isBlank (trimStart cs)
    intro c first
    have kept := List.head?_dropWhile_not isBlank cs
    rw [show cs.dropWhile isBlank = trim cs ++ cut from split.symm,
      List.head?_append_of_ne_nil _ (List.ne_nil_of_mem (List.mem_of_mem_head? first)),
      Option.mem_def.mp first] at kept
    exact kept
  rcases List.eq_nil_or_concat (trim cs) with none | ⟨more, d, ended⟩
  · rw [none]
    rfl
  · rw [ended, List.concat_eq_append] at start ending ⊢
    have whole : trimStart (more ++ [d]) = more ++ [d] := by
      cases more with
      | nil => exact trimStart_cons (start d rfl)
      | cons c rest => exact trimStart_cons (start c rfl)
    rw [trim, whole]
    exact dropEndWhile_concat (ending d List.getLast?_concat)

theorem trim_infix (cs : List Char) : trim cs <:+: cs := by
  obtain ⟨gap, rest, split, -⟩ := trim_append cs
  exact ⟨gap, rest, split.symm⟩

theorem before_begins (pattern cs : List Char) : before pattern cs <+: cs := by
  induction cs with
  | nil => exact List.prefix_rfl
  | cons c rest ih =>
    rw [before]
    split
    · exact List.nil_prefix
    · exact List.cons_prefix_cons.mpr ⟨rfl, ih⟩

theorem not_infix_before (some : pattern ≠ []) (cs : List Char) :
    ¬pattern <:+: before pattern cs := by
  induction cs with
  | nil => exact fun found => some (List.infix_nil.mp found)
  | cons c rest ih =>
    rw [before]
    split
    · exact fun found => some (List.infix_nil.mp found)
    · rename_i other
      rw [List.infix_cons_iff, not_or]
      refine ⟨fun here => other (startsWith_iff.mpr ?_), ih⟩
      exact here.trans (List.cons_prefix_cons.mpr ⟨rfl, before_begins pattern rest⟩)

theorem after?_split {rest : List Char} (found : after? pattern cs = some rest) :
    cs = pattern ++ rest := by
  induction pattern generalizing cs with
  | nil => exact Option.some.inj found
  | cons p ps ih =>
    cases cs with
    | nil => cases found
    | cons c more =>
      rw [after?] at found
      split at found
      · rename_i same
        rw [same, ih found, List.cons_append]
      · cases found

theorem feed_notin_lines {line : List Char} (member : line ∈ lines cs) : '\n' ∉ line := by
  obtain ⟨part, there, same⟩ := mem_linesOfParts member
  have one := not_mem_of_mem_splitAt there
  rcases same with rfl | rfl
  · exact one
  · exact fun inside => one ((dropReturn_begins part).subset inside)

/-- Nothing of what is added counts if the limit has left something out before. -/
theorem takeBytes_append_of_cut (cut : takeBytes limit cs ≠ cs) (more : List Char) :
    takeBytes limit (cs ++ more) = takeBytes limit cs := by
  induction cs generalizing limit with
  | nil => exact absurd rfl cut
  | cons c rest ih =>
    rw [List.cons_append, takeBytes, takeBytes]
    rw [takeBytes] at cut
    split
    · rename_i fits
      rw [if_pos fits] at cut
      rw [ih fun same => cut (congrArg (c :: ·) same)]
    · rfl

/-- The characters that fit are those that the first bytes make up, so these bytes tell them. -/
theorem takeBytes_of_bytes (same : (encode cs).take limit = (encode ds).take limit) :
    takeBytes limit cs = takeBytes limit ds := by
  have whole (es : List Char) :
      (decodeParts ((encode es).take limit)).filterMap id = takeBytes limit es := by
    rw [decodeParts_take, List.filterMap_append]
    split <;> simp
  rw [← whole cs, same, whole ds]

end Text

namespace HeaderBlock

open Text

variable {name value : String} {key line source s t : List Char}

/-- A line that gives a header a value: behind the comment marks the header's name in any case, a
colon, and something that is left when the ends of comment and block and the white space are cut. -/
structure Gives (name value : String) (line : List Char) : Prop where
  listed : name ∈ known
  nonempty : value ≠ ""
  written : ∃ key raw, splitOnce ':' (dropCommentMarks line) = some (key, raw) ∧
    sameIgnoringCase name.toList (trim key) = true ∧ value = .ofList (cleanValue raw)

theorem canonical?_eq_some_iff : canonical? key = some name ↔
    name ∈ known ∧ sameIgnoringCase name.toList key = true := by
  constructor
  · intro found
    rw [canonical?] at found
    exact ⟨List.mem_of_find?_eq_some found, by simpa using List.find?_some found⟩
  · rintro ⟨listed, same⟩
    exact canonical?_same listed same

theorem given?_eq_some_iff : given? name line = some value ↔ Gives name value line := by
  have empty (raw : List Char) : cleanValue raw = [] ↔ String.ofList (cleanValue raw) = "" :=
    String.ofList_eq_empty_iff.symm
  constructor
  · intro given
    unfold given? at given
    cases read : ofLine? line with
    | none => simp [read] at given
    | some entry =>
      simp only [read, Option.ite_none_right_eq_some, Option.some.injEq] at given
      obtain ⟨⟨rfl, nonempty⟩, rfl⟩ := given
      rw [ofLine?_eq, Option.bind_eq_some_iff] at read
      obtain ⟨⟨key, raw⟩, split, named⟩ := read
      obtain ⟨name, found, rfl⟩ := Option.map_eq_some_iff.mp named
      obtain ⟨listed, same⟩ := canonical?_eq_some_iff.mp found
      exact ⟨listed, mt (empty raw).mpr nonempty, key, raw, split, same, rfl⟩
  · rintro ⟨listed, nonempty, key, raw, split, same, rfl⟩
    have read : ofLine? line = some (name, cleanValue raw) := by
      rw [ofLine?_eq, split]
      simp [canonical?_same listed same]
    have stays : cleanValue raw ≠ [] := mt (empty raw).mp nonempty
    simp [given?, read, stays]

theorem dropCommentMarks_ends (line : List Char) : dropCommentMarks line <:+ line := by
  have blanks : line.dropWhile (fun c => c == ' ' || c == '\t') <:+ line := List.dropWhile_suffix _
  simp only [dropCommentMarks]
  cases found : after? "<?php".toList (line.dropWhile fun c => c == ' ' || c == '\t') with
  | none =>
    rw [Option.getD_none]
    exact (List.dropWhile_suffix _).trans blanks
  | some rest =>
    rw [after?_split found] at blanks
    rw [Option.getD_some]
    exact (List.dropWhile_suffix _).trans ((List.suffix_append _ rest).trans blanks)

theorem Gives.isValue (gives : Gives name value line) (one : '\n' ∉ line) :
    IsValue value.toList := by
  obtain ⟨-, nonempty, key, raw, split, -, rfl⟩ := gives
  rw [String.toList_ofList]
  have cut : cleanValue raw <:+: before "?>".toList (before "*/".toList raw) := trim_infix _
  have inner : cleanValue raw <:+: before "*/".toList raw :=
    cut.trans (before_begins _ _).isInfix
  refine ⟨?_, trim_trim _, ?_, ?_, ?_⟩
  · rintro none
    rw [none] at nonempty
    exact nonempty rfl
  · intro member
    have written := (splitOnce_eq_some_iff.mp split).1
    have inside : '\n' ∈ dropCommentMarks line := by
      rw [written]
      have there := (inner.trans (before_begins _ _).isInfix).subset member
      exact List.mem_append_right _ (List.mem_cons_of_mem _ there)
    exact one ((dropCommentMarks_ends line).subset inside)
  -- The end of a comment is cut first, so that the value lies in a text without either end.
  · exact fun found => not_infix_before (by decide) _ (found.trans inner)
  · exact fun found => not_infix_before (by decide) _ (found.trans cut)

theorem mem_values_iff (source : List Char) (name value : String) :
    (name, value) ∈ (ofChars source).values ↔ (ofChars source).get? name = some value := by
  have ascending : Entries.Ascending (ofChars source).values :=
    foldl_ascending List.Pairwise.nil _
  have distinct : ((ofChars source).values.map Prod.fst).Nodup :=
    List.pairwise_map.mpr (List.Pairwise.imp (fun less => String.ne_of_lt less) ascending)
  exact ⟨Entries.lookup_of_mem distinct, Entries.mem_of_lookup⟩

/-- An entry is what the first line that gives the header a value gives it. -/
theorem mem_values_iff_first (source : List Char) (name value : String) :
    (name, value) ∈ (ofChars source).values ↔
      ∃ earlier line later, lines (takeBytes scanLimit source) = earlier ++ line :: later ∧
        Gives name value line ∧ ∀ l ∈ earlier, ∀ other, ¬Gives name other l := by
  rw [mem_values_iff, get?_ofChars, List.findSome?_eq_some_iff]
  simp only [given?_eq_some_iff, Option.eq_none_iff_forall_ne_some, ne_eq]

theorem get?_append (ended : s.getLast? = some '\n') (t : List Char)
    (found : (ofChars s).get? name = some value) : (ofChars (s ++ t)).get? name = some value := by
  rw [get?_ofChars] at found ⊢
  -- Either all lines of `s` come first, or nothing behind `s` is looked at.
  by_cases fits : byteSize s ≤ scanLimit
  · rw [takeBytes_of_fits fits] at found
    rw [takeBytes_append fits, lines_append ended, List.findSome?_append, found]
    rfl
  · have cut : takeBytes scanLimit s ≠ s := fun whole =>
      fits (whole ▸ byteSize_takeBytes scanLimit s)
    rw [takeBytes_append_of_cut cut, found]

/-- The headers of a text are told by its first 8192 bytes; those of a text that ends with a line
break keep their values in whatever goes on from there; and the entries are what the first lines
that give the headers values give them, by canonical names and fit for a comment. -/
theorem ofSource_first_given (s t : String) :
    (∀ other : String, (encode other.toList).take 8192 = (encode (s ++ t).toList).take 8192 →
        ofSource other = ofSource (s ++ t)) ∧
      (s.toList.getLast? = some '\n' → ∀ name value,
        (ofSource s).get? name = some value → (ofSource (s ++ t)).get? name = some value) ∧
      (∀ name value, (name, value) ∈ (ofSource (s ++ t)).values ↔
        ∃ earlier line later,
          lines (takeBytes 8192 (s ++ t).toList) = earlier ++ line :: later ∧
            Gives name value line ∧ ∀ l ∈ earlier, ∀ other, ¬Gives name other l) ∧
      ∀ entry ∈ (ofSource (s ++ t)).values, entry.1 ∈ known ∧ IsValue entry.2.toList := by
  have first (name value : String) := mem_values_iff_first (s ++ t).toList name value
  refine ⟨fun other same => ?_, fun ended name value found => ?_, first, ?_⟩
  · have window : takeBytes scanLimit other.toList = takeBytes scanLimit (s ++ t).toList :=
      takeBytes_of_bytes same
    rw [ofSource, ofSource, ofChars, ofChars, window]
  · rw [ofSource, String.toList_append]
    exact get?_append ended t.toList found
  · rintro ⟨name, value⟩ member
    obtain ⟨earlier, line, later, split, gives, -⟩ := (first name value).mp member
    have listed : line ∈ lines (takeBytes scanLimit (s ++ t).toList) := by
      rw [split]
      simp
    exact ⟨gives.listed, gives.isValue (feed_notin_lines listed)⟩

/-- What stands below the first 8192 bytes, and a header that is written three times. -/
theorem ofSource_first_given_repeated :
    (∀ t u : String, ofSource (.ofList (List.replicate 8192 '#') ++ u) =
        ofSource (.ofList (List.replicate 8192 '#') ++ t)) ∧
      (ofSource ("<?php\n// VERSION: */\n# version: 1.0 */ ?>\n" ++ "Version: 2.0")).get?
        "Version" = some "1.0" := by
  constructor
  · intro t u
    have size : (encode (List.replicate 8192 '#')).length = 8192 := by
      have one : Char.utf8Size '#' = 1 := by decide
      rw [length_encode, byteSize_replicate, one]
    have bytes (more : String) :
        (encode (.ofList (List.replicate 8192 '#') ++ more : String).toList).take 8192 =
          encode (List.replicate 8192 '#') := by
      rw [String.toList_append, String.toList_ofList, encode, List.flatMap_append]
      exact List.take_left' size
    exact (ofSource_first_given (.ofList (List.replicate 8192 '#')) t).1 _
      ((bytes u).trans (bytes t).symm)
  · obtain ⟨-, kept, -⟩ :=
      ofSource_first_given "<?php\n// VERSION: */\n# version: 1.0 */ ?>\n" "Version: 2.0"
    exact kept (by decide) "Version" "1.0" (by decide +kernel)

end HeaderBlock

end PluginAudit
