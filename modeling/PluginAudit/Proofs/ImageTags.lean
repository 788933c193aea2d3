import Mathlib.Data.List.DropRight
import Mathlib.Data.Prod.Lex
import PluginAudit.Check.ImageMarkup
import PluginAudit.Proofs.FoldedText
import PluginAudit.Proofs.TextLines
import PluginAudit.Proofs.Utf8

/-!
The tags in a text and their places. A tag is found wherever it stands in the text, since no line
break can be a part of it; its line and its column are counted from what stands before it, and they
are those of the line that it stands in.
-/

namespace PluginAudit

namespace ImageCheck

open Text

variable {text source before part : List Char} {line column : Nat} {x : Char}

/-- A text begins with a tag, whose name is in any case and goes no further. -/
def Begins (text : List Char) : Prop :=
  ∃ tag after, text = tag ++ after ∧ sameIgnoringCase "<img".toList tag = true ∧
    ∀ c ∈ after.head?, isWord c = false

theorem isPlain_tag : ∀ p ∈ "<img".toList, IsPlain p := by
  have all : "<img".toList.all (IsPlain ·) = true := by decide
  exact fun p member => of_decide_eq_true (List.all_eq_true.mp all p member)

theorem isTag_iff : isTag text = true ↔ Begins text := by
  have found {after : List Char} := @afterFolded?_plain_iff "<img".toList text after isPlain_tag
  constructor
  · intro tag
    unfold isTag at tag
    split at tag
    · rename_i here
      obtain ⟨start, split, same⟩ := found.mp here
      exact ⟨start, [], split, same, nofun⟩
    · rename_i c rest here
      obtain ⟨start, split, same⟩ := found.mp here
      refine ⟨start, c :: rest, split, same, ?_⟩
      rintro d ⟨⟩
      simpa using tag
    · cases tag
  · rintro ⟨tag, after, split, same, ends⟩
    have here : afterFolded? "<img".toList text = some after := found.mpr ⟨tag, split, same⟩
    rw [isTag, here]
    cases after with
    | nil => rfl
    | cons c rest => simp [ends c rfl]

instance : DecidablePred Begins := fun _ => decidable_of_iff _ isTag_iff

/-- A text is seen to begin with a tag, or not to, before a line ends. -/
theorem isTag_append_cons (foreign : foldChar x ∉ "<img".toList) (gap : isWord x = false)
    (more : List Char) : isTag (text ++ x :: more) = isTag text := by
  unfold isTag
  rw [afterFolded?_append_cons foreign]
  cases afterFolded? "<img".toList text with
  | none => rfl
  | some after =>
    cases after with
    | nil => simp [gap]
    | cons c rest => rfl

theorem isTag_feed (text rest : List Char) : isTag (text ++ '\n' :: rest) = isTag text :=
  isTag_append_cons (by decide) (by decide) rest

theorem isTag_dropReturn (text : List Char) : isTag (dropReturn text) = isTag text := by
  rcases dropReturn_cases text with same | ended
  · rw [same]
  · have cut := @isTag_append_cons (dropReturn text) '\r' (by decide) (by decide) []
    rw [← ended] at cut
    exact cut.symm

/-- The places of the tags of a text that begins at a place, line by line and column by column. -/
def placesFrom (line column : Nat) : List Char → List (Nat × Nat)
  | [] => []
  | c :: rest =>
    let later :=
      if c = '\n' then placesFrom (line + 1) 1 rest else placesFrom line (column + c.utf8Size) rest
    if isTag (c :: rest) then (line, column) :: later else later

theorem placesFrom_line (one : '\n' ∉ part) :
    placesFrom line column part = (tagColumns column part).map (line, ·) := by
  induction part generalizing column with
  | nil => rfl
  | cons c rest ih =>
    obtain ⟨other, later⟩ := List.ne_and_not_mem_of_not_mem_cons one
    rw [placesFrom, tagColumns, if_neg other.symm, ih later]
    split <;> rfl

theorem placesFrom_feed (one : '\n' ∉ part) (rest : List Char) :
    placesFrom line column (part ++ '\n' :: rest) =
      (tagColumns column (dropReturn part)).map (line, ·) ++ placesFrom (line + 1) 1 rest := by
  have noTag (c : Char) (foreign : '<' ≠ foldChar c) (more : List Char) :
      isTag (c :: more) = false := by
    simp [isTag, afterFolded?, foreign]
  induction part generalizing column with
  | nil =>
    rw [List.nil_append, placesFrom, noTag '\n' (by decide)]
    simp [dropReturn, tagColumns]
  | cons c more ih =>
    obtain ⟨other, later⟩ := List.ne_and_not_mem_of_not_mem_cons one
    have begins : isTag (c :: (more ++ '\n' :: rest)) = isTag (dropReturn (c :: more)) := by
      rw [isTag_dropReturn, ← List.cons_append, isTag_feed]
    rw [List.cons_append, placesFrom, if_neg other.symm, ih later, begins]
    -- A return that ends the line is cut from it; no tag begins with one.
    by_cases last : c = '\r' ∧ more = []
    · obtain ⟨rfl, rfl⟩ := last
      rfl
    · have kept : dropReturn (c :: more) = c :: dropReturn more := by
        rw [dropReturn]
        rintro rfl rfl
        exact last ⟨rfl, rfl⟩
      rw [kept, tagColumns]
      split <;> rfl

/-- The places of the tags of some lines, by their numbers from a first one on. -/
def linePlaces (line : Nat) : List (List Char) → List (Nat × Nat)
  | [] => []
  | l :: rest => (tagColumns 1 l).map (line, ·) ++ linePlaces (line + 1) rest

theorem placesFrom_joinWith {parts : List (List Char)} (some : parts ≠ [])
    (one : ∀ part ∈ parts, '\n' ∉ part) :
    placesFrom line 1 (joinWith ['\n'] parts) = linePlaces line (linesOfParts parts) := by
  induction parts generalizing line with
  | nil => exact absurd rfl some
  | cons part rest ih =>
    obtain ⟨first, later⟩ := List.forall_mem_cons.mp one
    cases rest with
    | nil =>
      rw [joinWith, placesFrom_line first, linesOfParts]
      cases part with
      | nil => rfl
      | cons c more => exact (List.append_nil _).symm
    | cons next more =>
      have joined : joinWith ['\n'] (part :: next :: more) =
          part ++ '\n' :: joinWith ['\n'] (next :: more) := by
        simp [joinWith]
      rw [joined, placesFrom_feed first, ih (List.cons_ne_nil _ _) later, linesOfParts, linePlaces]

theorem linePlaces_lines (source : List Char) :
    linePlaces 1 (lines source) = placesFrom 1 1 source := by
  have joined := @placesFrom_joinWith 1 (splitAt '\n' source) (splitAt_ne_nil '\n' source)
    fun part member => not_mem_of_mem_splitAt member
  rw [joinWith_splitAt] at joined
  exact joined.symm

/-- The number of the line that what stands behind a text is on. -/
def lineBehind (before : List Char) : Nat := before.count '\n' + 1

/-- The column of what stands behind a text: one more than the bytes of the line before it. -/
def columnBehind (before : List Char) : Nat := byteSize (before.rtakeWhile (· ≠ '\n')) + 1

theorem behind_feed (before : List Char) :
    lineBehind (before ++ ['\n']) = lineBehind before + 1 ∧ columnBehind (before ++ ['\n']) = 1 := by
  simp [lineBehind, columnBehind, byteSize]

theorem behind_other (other : x ≠ '\n') (before : List Char) :
    lineBehind (before ++ [x]) = lineBehind before ∧
      columnBehind (before ++ [x]) = columnBehind before + x.utf8Size := by
  simp [lineBehind, columnBehind, other, byteSize_append, byteSize, Nat.add_right_comm]

/-- The offsets at which tags begin. -/
def offsets (source : List Char) : List Nat :=
  (List.range source.length).filter fun i => Begins (source.drop i)

theorem offsets_cons (c : Char) (rest : List Char) :
    offsets (c :: rest) =
      if isTag (c :: rest) then 0 :: (offsets rest).map (· + 1) else (offsets rest).map (· + 1) := by
  have later : ((List.range rest.length).map (· + 1)).filter (fun i => Begins ((c :: rest).drop i)) =
      (offsets rest).map (· + 1) := List.filter_map
  have first : decide (Begins ((c :: rest).drop 0)) = isTag (c :: rest) := by
    rw [Bool.eq_iff_iff, decide_eq_true_iff, isTag_iff, List.drop_zero]
  rw [offsets, List.length_cons, List.range_succ_eq_map, List.filter_cons, later, first]

/-- The places of the tags of a text, each told from what stands before the tag. -/
def places (source : List Char) : List (Nat × Nat) :=
  (offsets source).map fun i => (lineBehind (source.take i), columnBehind (source.take i))

theorem placesFrom_behind (before text : List Char) :
    placesFrom (lineBehind before) (columnBehind before) text =
      (offsets text).map fun i =>
        (lineBehind (before ++ text.take i), columnBehind (before ++ text.take i)) := by
  induction text generalizing before with
  | nil => rfl
  | cons c rest ih =>
    have later := ih (before ++ [c])
    have step : placesFrom (lineBehind (before ++ [c])) (columnBehind (before ++ [c])) rest =
        if c = '\n' then placesFrom (lineBehind before + 1) 1 rest
        else placesFrom (lineBehind before) (columnBehind before + c.utf8Size) rest := by
      split
      · rename_i feed
        rw [feed, (behind_feed before).1, (behind_feed before).2]
      · rename_i other
        rw [(behind_other other before).1, (behind_other other before).2]
    have shifted : (fun i => (lineBehind (before ++ [c] ++ rest.take i),
        columnBehind (before ++ [c] ++ rest.take i))) =
        (fun i => (lineBehind (before ++ (c :: rest).take i),
          columnBehind (before ++ (c :: rest).take i))) ∘ (· + 1) := by
      funext i
      simp
    rw [placesFrom, ← step, later, shifted, ← List.map_map, offsets_cons]
    split
    · rw [List.map_cons, List.take_zero, List.append_nil]
    · rfl

/-- Counted line by line and column by column, or from what stands before them: the places are the
same. -/
theorem placesFrom_eq (source : List Char) : placesFrom 1 1 source = places source :=
  placesFrom_behind [] source

theorem mem_tagColumns_iff {start : Nat} : column ∈ tagColumns start text ↔
    ∃ before rest, text = before ++ rest ∧ column = start + byteSize before ∧ Begins rest := by
  have noTag : ¬Begins [] := fun begins => absurd (isTag_iff.mpr begins) (by decide)
  induction text generalizing start with
  | nil =>
    refine iff_of_false List.not_mem_nil ?_
    rintro ⟨before, rest, split, -, begins⟩
    rw [(List.append_eq_nil_iff.mp split.symm).2] at begins
    exact noTag begins
  | cons c rest ih =>
    have member : column ∈ tagColumns start (c :: rest) ↔
        (column = start ∧ Begins (c :: rest)) ∨ column ∈ tagColumns (start + c.utf8Size) rest := by
      rw [tagColumns, ← isTag_iff]
      split <;> simp_all
    refine member.trans ((or_congr_right ih).trans ?_)
    constructor
    · rintro (⟨rfl, begins⟩ | ⟨before, later, rfl, rfl, begins⟩)
      · exact ⟨[], c :: rest, rfl, rfl, begins⟩
      · exact ⟨c :: before, later, rfl, by rw [byteSize, Nat.add_assoc], begins⟩
    · rintro ⟨before, later, split, rfl, begins⟩
      cases before with
      | nil => exact .inl ⟨rfl, split ▸ begins⟩
      | cons d before =>
        obtain ⟨rfl, rfl⟩ := List.cons.inj split
        exact .inr ⟨before, later, rfl, by rw [byteSize, Nat.add_assoc], begins⟩

theorem mem_linePlaces_iff {lines : List (List Char)} {first : Nat} :
    (line, column) ∈ linePlaces first lines ↔
      ∃ n l, line = first + n ∧ lines[n]? = some l ∧ column ∈ tagColumns 1 l := by
  induction lines generalizing first with
  | nil => simp [linePlaces]
  | cons l rest ih =>
    rw [linePlaces, List.mem_append, ih]
    constructor
    · rintro (here | ⟨n, l', rfl, there, member⟩)
      · obtain ⟨c, member, same⟩ := List.mem_map.mp here
        cases same
        exact ⟨0, l, rfl, rfl, member⟩
      · exact ⟨n + 1, l', by omega, there, member⟩
    · rintro ⟨n, l', rfl, there, member⟩
      cases n with
      | zero =>
        obtain rfl := Option.some.inj there
        exact .inl (List.mem_map_of_mem member)
      | succ n => exact .inr ⟨n, l', by omega, there, member⟩

/-- Whether a line of a text, counted from one, has a tag at a column: the tag begins behind so many
bytes of the line. -/
def HasTagAt (source : List Char) (line column : Nat) : Prop :=
  ∃ n before rest, line = n + 1 ∧ column = byteSize before + 1 ∧
    (lines source)[n]? = some (before ++ rest) ∧ Begins rest

/-- The tags counted in the whole text are those that its lines have. -/
theorem mem_places_iff : (line, column) ∈ places source ↔ HasTagAt source line column := by
  rw [← placesFrom_eq, ← linePlaces_lines, mem_linePlaces_iff]
  simp only [mem_tagColumns_iff]
  constructor
  · rintro ⟨n, l, rfl, there, before, rest, rfl, rfl, begins⟩
    exact ⟨n, before, rest, Nat.add_comm 1 n, Nat.add_comm _ _, there, begins⟩
  · rintro ⟨n, before, rest, rfl, rfl, there, begins⟩
    exact ⟨n, _, Nat.add_comm _ _, there, before, rest, rfl, Nat.add_comm _ _, begins⟩

theorem placesFrom_later {place : Nat × Nat} (member : place ∈ placesFrom line column text) :
    toLex (line, column) ≤ toLex place := by
  induction text generalizing line column with
  | nil => cases member
  | cons c rest ih =>
    have below : toLex (line, column) ≤ toLex (line + 1, 1) :=
      Prod.Lex.toLex_le_toLex.mpr (.inl (Nat.lt_succ_self line))
    have right : toLex (line, column) ≤ toLex (line, column + c.utf8Size) :=
      Prod.Lex.toLex_le_toLex.mpr (.inr ⟨rfl, Nat.le_add_right _ _⟩)
    have later (found : place ∈ if c = '\n' then placesFrom (line + 1) 1 rest
        else placesFrom line (column + c.utf8Size) rest) : toLex (line, column) ≤ toLex place := by
      split at found
      · exact below.trans (ih found)
      · exact right.trans (ih found)
    rw [placesFrom] at member
    split at member
    · rcases List.mem_cons.mp member with rfl | others
      · exact le_rfl
      · exact later others
    · exact later member

theorem placesFrom_ascending (line column : Nat) (text : List Char) :
    (placesFrom line column text).Pairwise (toLex · < toLex ·) := by
  induction text generalizing line column with
  | nil => exact List.Pairwise.nil
  | cons c rest ih =>
    have some := Char.utf8Size_pos c
    have below : toLex (line, column) < toLex (line + 1, 1) :=
      Prod.Lex.toLex_lt_toLex.mpr (.inl (Nat.lt_succ_self line))
    have right : toLex (line, column) < toLex (line, column + c.utf8Size) :=
      Prod.Lex.toLex_lt_toLex.mpr (.inr ⟨rfl, Nat.lt_add_of_pos_right some⟩)
    rw [placesFrom]
    split
    · refine List.pairwise_cons.mpr ⟨fun place member => ?_, ?_⟩
      · split at member
        · exact below.trans_le (placesFrom_later member)
        · exact right.trans_le (placesFrom_later member)
      · split <;> exact ih _ _
    · split <;> exact ih _ _

/-- From tag to tag the places go on, so that no two tags have the same one. -/
theorem places_ascending (source : List Char) :
    (places source).Pairwise (toLex · < toLex ·) :=
  placesFrom_eq source ▸ placesFrom_ascending 1 1 source

theorem places_bounded {place : Nat × Nat} (member : place ∈ places source) :
    place.1 ≤ byteSize source ∧ place.2 ≤ byteSize source := by
  obtain ⟨i, listed, rfl⟩ := List.mem_map.mp member
  have inner : i < source.length := List.mem_range.mp (List.mem_filter.mp listed).1
  have split : byteSize (source.take i) + byteSize (source.drop i) = byteSize source := by
    rw [← byteSize_append, List.take_append_drop]
  have behind : 0 < byteSize (source.drop i) :=
    Nat.lt_of_lt_of_le (by rw [List.length_drop]; omega) (length_le_byteSize (source.drop i))
  have feeds : (source.take i).count '\n' ≤ byteSize (source.take i) :=
    (List.count_le_length).trans (length_le_byteSize _)
  have sizes := byteSize_append ((source.take i).rdropWhile (· ≠ '\n'))
    ((source.take i).rtakeWhile (· ≠ '\n'))
  rw [List.rdropWhile_append_rtakeWhile] at sizes
  simp only [lineBehind, columnBehind]
  omega

theorem findingsFrom_eq (file : String) (first : Nat) (lines : List (List Char)) :
    findingsFrom file first lines = (linePlaces first lines).map fun place =>
      ((Finding.warning code message).within file).atPlace place.1 place.2 := by
  induction lines generalizing first with
  | nil => rfl
  | cons l rest ih =>
    rw [findingsFrom, linePlaces, List.map_append, List.map_map, ih]
    rfl

theorem fileFindings_eq (file : String) (source : List Char) :
    fileFindings file source = (places source).map fun place =>
      ((Finding.warning code message).within file).atPlace place.1 place.2 := by
  rw [fileFindings, findingsFrom_eq, linePlaces_lines, placesFrom_eq]

end ImageCheck

end PluginAudit
