import Mathlib.Data.List.Nodup
import Mathlib.Data.List.TakeDrop
import PluginAudit.Proofs.ReadmeLines
import PluginAudit.Proofs.TestedReleases
import PluginAudit.Readme.Reader

/-!
What a readme leaves out of its headers and of its short description. Tags, contributors and
versions are the parts of the headers that have the right form, and the description is the
beginning of the first paragraph below the headers; each of seven warnings is told exactly if
something has been left out, at most once, in a fixed order and before those about sections.
-/

namespace PluginAudit

namespace Text

theorem head_dropWhile {α : Type} (p : α → Bool) (as : List α) :
    ∀ a ∈ (as.dropWhile p).head?, p a = false := by
  intro a first
  have kept := List.head?_dropWhile_not p as
  rw [first] at kept
  exact kept

theorem lowerChar_ne_nil (c : Char) : lowerChar c ≠ [] := by
  unfold lowerChar
  split
  · exact List.cons_ne_nil _ _
  · split <;> exact List.cons_ne_nil _ _

theorem isEmpty_lower (cs : List Char) : (lower cs).isEmpty = cs.isEmpty := by
  cases cs with
  | nil => rfl
  | cons c rest =>
    refine List.isEmpty_eq_false_iff.mpr fun empty => ?_
    obtain ⟨image, -⟩ := List.append_eq_nil_iff.mp empty
    split at image
    · split at image <;> cases image
    · exact lowerChar_ne_nil c image

end Text

theorem Entries.put_ne_nil {α : Type} (key : String) (value : α) (entries : List (String × α)) :
    put key value entries ≠ [] := by
  unfold put
  cases entries with
  | nil => exact List.cons_ne_nil _ _
  | cons entry rest =>
    rw [update]
    split
    · exact List.cons_ne_nil _ _
    · split <;> exact List.cons_ne_nil _ _

namespace Readme

open Text

/-! ### The first paragraph -/

def isHeaderLine (line : List Char) : Bool :=
  !allBlank line && !isHeading line && (headerOf? line).isSome

/-- A line that can belong to a paragraph. -/
def isProse (line : List Char) : Bool := !isHeading line && !allBlank line

/-- What follows the headers. Blank lines may stand before them and not between them. -/
def belowHeaders (lines : List (List Char)) : List (List Char) :=
  (lines.dropWhile allBlank).dropWhile isHeaderLine

/-- The first paragraph below the headers, on one line. -/
def paragraph (lines : List (List Char)) : List Char :=
  joinWith [' '] ((((belowHeaders lines).dropWhile allBlank).takeWhile isProse).map trim)

section Paragraph

variable {headers : List (String × String)} {lines : List (List Char)}

theorem isHeading_blank {line : List Char} (blank : allBlank line = true) :
    isHeading line = false := by
  have empty : trimStart line = [] := List.dropWhile_eq_nil_iff.mpr (List.all_eq_true.mp blank)
  rw [isHeading, empty]

theorem readParagraph_description (headers : List (String × String)) (read lines) :
    (readParagraph headers read lines).description =
      read.reverse ++ (lines.takeWhile isProse).map trim := by
  induction lines generalizing read with
  | nil => simp [readParagraph]
  | cons line rest ih =>
    rw [readParagraph]
    split
    · rename_i heading
      rw [List.takeWhile_cons_of_neg (by simp [isProse, heading])]
      simp
    · rename_i plain
      split
      · rename_i blank
        rw [List.takeWhile_cons_of_neg (by simp [isProse, blank])]
        simp
      · rename_i solid
        rw [ih, List.takeWhile_cons_of_pos (by simp [isProse, plain, solid])]
        simp

theorem readDescription_description (headers : List (String × String)) (lines) :
    (readDescription headers lines).description =
      ((lines.dropWhile allBlank).takeWhile isProse).map trim := by
  unfold readDescription
  split
  · rename_i none
    rw [none]
    rfl
  · rename_i line rest first
    have solid : allBlank line = false := head_dropWhile allBlank lines line (by rw [first]; rfl)
    rw [first]
    split
    · rename_i heading
      rw [List.takeWhile_cons_of_neg (by simp [isProse, heading])]
      rfl
    · rename_i plain
      rw [readParagraph_description, List.takeWhile_cons_of_pos (by simp [isProse, plain, solid])]
      rfl

/-- Once a header has been read, or where no blank line comes first, the headers run to the first
line that is none. -/
theorem readOpening_description_headed
    (begun : headers ≠ [] ∨ ∀ line ∈ lines.head?, allBlank line = false) :
    (readOpening headers lines).description =
      (((lines.dropWhile isHeaderLine).dropWhile allBlank).takeWhile isProse).map trim := by
  -- After the first header only the left side of `begun` is left, which the rest needs.
  induction lines generalizing headers with
  | nil => rfl
  | cons line rest ih =>
    rw [readOpening]
    split
    · rename_i blank
      have some : headers.isEmpty = false := by
        refine List.isEmpty_eq_false_iff.mpr (begun.resolve_right fun solid => ?_)
        rw [solid line rfl] at blank
        cases blank
      rw [some, List.dropWhile_cons_of_neg (by simp [isHeaderLine, blank]),
        List.dropWhile_cons_of_pos blank]
      exact readDescription_description headers rest
    · rename_i solid
      rw [Bool.not_eq_true] at solid
      split
      · rename_i heading
        rw [List.dropWhile_cons_of_neg (by simp [isHeaderLine, heading]),
          List.dropWhile_cons_of_neg (by simp [solid]),
          List.takeWhile_cons_of_neg (by simp [isProse, heading])]
        rfl
      · rename_i plain
        split
        · rename_i key value header
          rw [ih (.inl (Entries.put_ne_nil _ _ _)),
            List.dropWhile_cons_of_pos (by simp [isHeaderLine, plain, solid, header])]
        · rename_i header
          rw [List.dropWhile_cons_of_neg (by simp [isHeaderLine, header]),
            List.dropWhile_cons_of_neg (by simp [solid]),
            List.takeWhile_cons_of_pos (by simp [isProse, plain, solid]),
            readParagraph_description]
          rfl

theorem readOpening_blank (lines : List (List Char)) :
    readOpening [] lines = readOpening [] (lines.dropWhile allBlank) := by
  induction lines with
  | nil => rfl
  | cons line rest ih =>
    cases blank : allBlank line with
    | false => rw [List.dropWhile_cons_of_neg (by simp [blank])]
    | true =>
      rw [List.dropWhile_cons_of_pos blank, ← ih, readOpening, if_pos blank]
      rfl

theorem readOpening_paragraph (lines : List (List Char)) :
    joinWith [' '] (readOpening [] lines).description = paragraph lines := by
  rw [readOpening_blank, readOpening_description_headed, paragraph, belowHeaders]
  exact .inr (head_dropWhile allBlank lines)

end Paragraph

/-! ### Lists and versions in headers -/

/-- A header lists its parts between commas, without white space around them and without those of
which nothing is left. A header that is not there lists nothing. -/
def Lists (headers : List (String × String)) (name : String) (parts : List (List Char)) : Prop :=
  match headers.lookup name with
  | none => parts = []
  | some value => ∃ pieces, pieces ≠ [] ∧ (∀ piece ∈ pieces, ',' ∉ piece) ∧
      value.toList = joinWith [','] pieces ∧ parts = (pieces.map trim).filter (!·.isEmpty)

def Digits (group : List Char) : Prop := group ≠ [] ∧ ∀ c ∈ group, isDigit c = true

/-- A major and a minor number, and perhaps a third one. -/
def IsHostVersion (value : List Char) : Prop :=
  ∃ major minor, Digits major ∧ Digits minor ∧
    (value = major ++ '.' :: minor ∨
      ∃ patch, Digits patch ∧ value = major ++ '.' :: (minor ++ '.' :: patch))

/-- A number, and once or twice a dot and another one. -/
def IsPhpVersion (value : List Char) : Prop :=
  ∃ (major : List Char) (more : List (List Char)), Digits major ∧ (∀ group ∈ more, Digits group) ∧
    1 ≤ more.length ∧ more.length ≤ 2 ∧ value = major ++ more.flatMap ('.' :: ·)

/-- Small letters, digits and four signs. -/
def IsAccountName (value : List Char) : Prop :=
  value ≠ [] ∧ ∀ c ∈ value, c.isLower = true ∨ c.isDigit = true ∨ c ∈ ['_', '-', '.', '@']

section Headers

variable {headers : List (String × String)} {name : String} {value : List Char}

/-- What a header lists is determined by it. -/
theorem lists_iff {parts : List (List Char)} :
    Lists headers name parts ↔ parts = (headers.lookup name).elim [] listed := by
  unfold Lists
  cases headers.lookup name with
  | none => exact Iff.rfl
  | some value =>
    constructor
    · rintro ⟨pieces, some, plain, written, rfl⟩
      rw [Option.elim_some, listed, written, splitAt_joinWith some plain]
    · rintro rfl
      exact ⟨splitAt ',' value.toList, splitAt_ne_nil _ _, fun _ => not_mem_of_mem_splitAt,
        (joinWith_splitAt _ _).symm, rfl⟩

theorem isAccountName_iff : isUsername value = true ↔ IsAccountName value := by
  simp [isUsername, IsAccountName, isUsernameChar, or_assoc]

theorem isVersion_iff_groups : isVersion value = true ↔
    ((splitAt '.' value).length = 2 ∨ (splitAt '.' value).length = 3) ∧
      ∀ group ∈ splitAt '.' value, Digits group := by
  simp [isVersion, Digits]

theorem Digits.undotted {group : List Char} (digits : Digits group) : '.' ∉ group :=
  fun member => absurd (digits.2 _ member) (by decide)

theorem splitAt_groups {major : List Char} {more : List (List Char)} (first : Digits major)
    (others : ∀ group ∈ more, Digits group) :
    splitAt '.' (major ++ more.flatMap ('.' :: ·)) = major :: more := by
  rw [← joinWith_cons]
  refine splitAt_joinWith (List.cons_ne_nil _ _) fun group member => ?_
  rcases List.mem_cons.mp member with rfl | later
  · exact first.undotted
  · exact (others group later).undotted

theorem isVersion_iff_php : isVersion value = true ↔ IsPhpVersion value := by
  rw [isVersion_iff_groups]
  constructor
  · rintro ⟨count, digits⟩
    obtain ⟨major, more, parted⟩ := List.exists_cons_of_ne_nil (splitAt_ne_nil '.' value)
    rw [parted, List.length_cons] at count
    rw [parted, List.forall_mem_cons] at digits
    refine ⟨major, more, digits.1, digits.2, by omega, by omega, ?_⟩
    rw [← joinWith_cons, ← parted, joinWith_splitAt]
  · rintro ⟨major, more, first, others, least, most, rfl⟩
    rw [splitAt_groups first others, List.length_cons, List.forall_mem_cons]
    exact ⟨by omega, first, others⟩

/-- The two forms of versions are one. -/
theorem isHostVersion_iff : IsHostVersion value ↔ IsPhpVersion value := by
  constructor
  · rintro ⟨major, minor, first, second, rfl | ⟨patch, third, rfl⟩⟩
    · exact ⟨major, [minor], first, by simpa using second, by simp, by simp, by simp⟩
    · exact ⟨major, [minor, patch], first, by simpa using ⟨second, third⟩, by simp, by simp,
        by simp⟩
  · rintro ⟨major, more, first, others, least, most, rfl⟩
    obtain ⟨minor, rest, rfl⟩ := List.exists_cons_of_length_pos least
    obtain ⟨second, later⟩ := List.forall_mem_cons.mp others
    refine ⟨major, minor, first, second, ?_⟩
    cases rest with
    | nil => exact .inl (by simp)
    | cons patch rest =>
      obtain rfl : rest = [] := by
        simp only [List.length_cons] at most
        exact List.length_eq_zero_iff.mp (by omega)
      exact .inr ⟨patch, later patch List.mem_cons_self, by simp⟩

theorem readVersion_eq_some_iff {warning : Warning} {version : String} :
    (readVersion headers name warning).1 = some version ↔
      headers.lookup name = some version ∧ isVersion version.toList = true := by
  refine ⟨readVersion_eq_some, ?_⟩
  rintro ⟨given, valid⟩
  rw [readVersion, given]
  simp only [valid, if_true]

/-- Whether the header is there without being a version. -/
def unversioned (headers : List (String × String)) (name : String) : Bool :=
  (headers.lookup name).any (!isVersion ·.toList)

theorem readVersion_keys (warning : Warning) :
    (readVersion headers name warning).2.map Warning.key =
      if unversioned headers name then [warning.key] else [] := by
  unfold readVersion unversioned
  cases headers.lookup name with
  | none => rfl
  | some version => cases valid : isVersion version.toList <;> simp [valid]

end Headers

theorem lowered_listed (value : String) :
    ((splitAt ',' value.toList).map fun t => lower (trim t)).filter (!·.isEmpty) =
      (listed value).map lower := by
  rw [listed, List.filter_map, List.filter_map, List.map_map]
  simp only [Function.comp_def, isEmpty_lower]

/-! ### Warnings -/

/-- The keys whose flags are raised. -/
def raised (flags : List (String × Bool)) : List String := (flags.filter Prod.snd).map Prod.fst

/-- The parts that a header lists, before any of them is left out. -/
def partsOf (headers : List (String × String)) (name : String) : List (List Char) :=
  (headers.lookup name).elim [] listed

/-- What may have to be left out before the sections, and whether it has been. -/
def omissions (headers : List (String × String)) (description : List Char) :
    List (String × Bool) :=
  let labels := (partsOf headers "tags").map lower
  [("trimmed_short_description", decide (descriptionLimit < description.length)),
    ("ignored_tags", labels.any uselessTags.contains),
    ("too_many_tags", decide (tagLimit < (labels.filter (!uselessTags.contains ·)).length)),
    ("contributor_ignored", (partsOf headers "contributors").any (!isUsername ·)),
    ("tested_header_ignored", unversioned headers "tested up to"),
    ("requires_header_ignored", unversioned headers "requires at least"),
    ("requires_php_header_ignored", unversioned headers "requires php")]

def omissionKeys : List String := ["trimmed_short_description", "ignored_tags", "too_many_tags",
  "contributor_ignored", "tested_header_ignored", "requires_header_ignored",
  "requires_php_header_ignored"]

/-- The sections that are read once the opening has ended. -/
def Opening.sections (o : Opening) : List Section :=
  sectionsFrom (o.heading.bind headingTitle?) 0 o.rest

section Warnings

variable {headers : List (String × String)} {description : List Char} {key : String} {flag : Bool}

theorem raised_cons (key : String) (flag : Bool) (flags : List (String × Bool)) :
    raised ((key, flag) :: flags) = (if flag then [key] else []) ++ raised flags := by
  cases flag <;> rfl

theorem raised_sublist (flags : List (String × Bool)) :
    (raised flags).Sublist (flags.map Prod.fst) := List.filter_sublist.map _

theorem mem_raised_iff {flags : List (String × Bool)} (distinct : (flags.map Prod.fst).Nodup)
    (listed : (key, flag) ∈ flags) : key ∈ raised flags ↔ flag = true := by
  constructor
  · intro member
    obtain ⟨entry, kept, rfl⟩ := List.mem_map.mp member
    obtain ⟨there, up⟩ := List.mem_filter.mp kept
    have same := List.inj_on_of_nodup_map distinct there listed rfl
    exact (congrArg Prod.snd same).symm.trans up
  · rintro rfl
    exact List.mem_map.mpr ⟨_, List.mem_filter.mpr ⟨listed, rfl⟩, rfl⟩

theorem omissions_keys (headers : List (String × String)) (description : List Char) :
    (omissions headers description).map Prod.fst = omissionKeys := rfl

theorem omissionKeys_nodup : omissionKeys.Nodup := by decide

/-- The key of a section's warning. -/
def IsSectionKey (key : String) : Prop := ∃ sectionKey, key = "trimmed_section_" ++ sectionKey

theorem sectionWarning_key {s : Section} {w : Warning} (told : w ∈ sectionWarning s) :
    IsSectionKey w.key := by
  simp only [sectionWarning] at told
  split at told
  · rw [List.mem_singleton.mp told]
    exact ⟨_, rfl⟩
  · cases told

theorem sectionWarnings_keys (sections : List Section) :
    ∀ key ∈ (sections.flatMap sectionWarning).map Warning.key, IsSectionKey key := by
  intro key member
  obtain ⟨w, told, rfl⟩ := List.mem_map.mp member
  obtain ⟨s, -, warned⟩ := List.mem_flatMap.mp told
  exact sectionWarning_key warned

theorem not_isSectionKey (member : key ∈ omissionKeys) : ¬IsSectionKey key := by
  rintro ⟨sectionKey, rfl⟩
  have begins : "trimmed_section_".toList <+: ("trimmed_section_" ++ sectionKey).toList := by
    rw [String.toList_append]
    exact List.prefix_append _ _
  have others : ∀ key ∈ omissionKeys, ¬"trimmed_section_".toList <+: key.toList := by decide
  exact others _ member begins

theorem tagsOf_header (headers : List (String × String)) :
    (match headers.lookup "tags" with
      | some value => tagsOf value
      | none => ([], [])) =
      let labels := (partsOf headers "tags").map lower
      let useful := labels.filter (!uselessTags.contains ·)
      let ignored := labels.filter uselessTags.contains
      (useful.take tagLimit, (if ignored.isEmpty then [] else [tagsWarning ignored]) ++
        if tagLimit < useful.length then [manyTagsWarning] else []) := by
  unfold partsOf
  cases headers.lookup "tags" with
  | none => rfl
  | some value =>
    simp only [tagsOf, lowered_listed]
    rfl

theorem isEmpty_filter {α : Type} (p : α → Bool) (as : List α) :
    (as.filter p).isEmpty = !as.any p := by
  induction as with
  | nil => rfl
  | cons a rest ih => cases kept : p a <;> simp [kept, ih]

theorem keys_unless (omitted : Bool) (w : Warning) :
    (if (!omitted) = true then [] else [w]).map Warning.key =
      if omitted then [w.key] else [] := by
  cases omitted <;> rfl

theorem keys_if (c : Prop) [Decidable c] (w : Warning) :
    (if c then [w] else []).map Warning.key = if decide c then [w.key] else [] := by
  by_cases holds : c <;> simp [holds]

/-- The warnings, of which those about sections come last. -/
theorem warnings_keys (source : List Char) (stableVersion recommendedPhp : String) :
    let readme := ofChars source stableVersion recommendedPhp
    let body := (readTitle (linesOf source)).2
    readme.warnings.map Warning.key = raised (omissions readme.headers (paragraph body)) ++
      ((readOpening [] body).sections.flatMap sectionWarning).map Warning.key := by
  intro readme body
  let opening := readOpening [] body
  have described : joinWith [' '] opening.description = paragraph body := readOpening_paragraph _
  have headers : readme.headers = opening.headers := rfl
  have read : readme.warnings =
      (if descriptionLimit < (joinWith [' '] opening.description).length
        then [descriptionWarning] else []) ++
      (match opening.headers.lookup "tags" with
        | some value => tagsOf value
        | none => ([], [])).2 ++
      (if ((partsOf opening.headers "contributors").filter (!isUsername ·)).isEmpty then []
        else [contributorsWarning ((partsOf opening.headers "contributors").filter
          (!isUsername ·))]) ++
      (readVersion opening.headers "tested up to" (versionWarning "tested_header_ignored"
        "Tested up to" "valid WordPress version" stableVersion)).2 ++
      (readVersion opening.headers "requires at least" (versionWarning "requires_header_ignored"
        "Requires at least" "valid WordPress version" stableVersion)).2 ++
      (readVersion opening.headers "requires php" (versionWarning "requires_php_header_ignored"
        "Requires PHP" "PHP version" recommendedPhp)).2 ++
      opening.sections.flatMap sectionWarning := rfl
  rw [headers, read, tagsOf_header, described]
  simp only [List.map_append, readVersion_keys, keys_if, keys_unless, isEmpty_filter, omissions,
    raised_cons, List.append_assoc]
  rfl

end Warnings

/-! ### What is kept and what is told -/

instance : DecidablePred IsAccountName := fun _ => decidable_of_iff _ isAccountName_iff

/-- A label that tells nothing of a plugin. -/
def IsUseless (label : List Char) : Prop :=
  label = "plugin".toList ∨ label = "wordpress".toList

instance : DecidablePred IsUseless := fun _ => inferInstanceAs (Decidable (_ ∨ _))

/-- Of the labels, which are the listed parts in small letters, those that are not useless are kept
up to a number of five. -/
structure TagsKept (listed : List (List Char)) (tags told : List String) : Prop where
  kept : tags.map String.toList = ((listed.map lower).filter (¬IsUseless ·)).take 5
  ignored : "ignored_tags" ∈ told ↔ ∃ part ∈ listed, IsUseless (lower part)
  many : "too_many_tags" ∈ told ↔ 5 < ((listed.map lower).filter (¬IsUseless ·)).length

/-- The listed contributors are divided by the form of their names. -/
structure ContributorsKept (listed : List (List Char)) (names others told : List String) :
    Prop where
  accepted : names.map String.toList = listed.filter (IsAccountName ·)
  refused : others.map String.toList = listed.filter (¬IsAccountName ·)
  ignored : "contributor_ignored" ∈ told ↔ others ≠ []

/-- The value of a header is kept if it has the form of a version. -/
structure VersionKept (form : List Char → Prop) (given? kept? : Option String)
    (ignored : Prop) : Prop where
  kept : ∀ version, kept? = some version ↔ given? = some version ∧ form version.toList
  told : ignored ↔ ∃ value, given? = some value ∧ ¬form value.toList

/-- Of a paragraph no more than 150 characters are kept. -/
structure DescriptionKept (paragraph : List Char) (description : String) (told : List String) :
    Prop where
  short : description.length ≤ 150
  begins : description.toList = paragraph.take 150
  trimmed : "trimmed_short_description" ∈ told ↔ description.toList ≠ paragraph

section Kept

variable {headers : List (String × String)} {told : List String} {description : List Char}

/-- The warnings before those about sections tell exactly what has been left out. -/
def Tells (told : List String) (headers : List (String × String)) (description : List Char) :
    Prop :=
  ∃ sections, told = raised (omissions headers description) ++ sections ∧
    ∀ key ∈ sections, IsSectionKey key

theorem Tells.mem_iff {key : String} {flag : Bool} (tells : Tells told headers description)
    (listed : (key, flag) ∈ omissions headers description) : key ∈ told ↔ flag = true := by
  obtain ⟨sections, rfl, later⟩ := tells
  have keys := omissions_keys headers description
  have among : key ∈ omissionKeys := by
    rw [← keys]
    exact List.mem_map.mpr ⟨_, listed, rfl⟩
  rw [List.mem_append, mem_raised_iff (keys ▸ omissionKeys_nodup) listed]
  exact or_iff_left fun member => not_isSectionKey among (later key member)

theorem Tells.ordered (tells : Tells told headers description) :
    ∃ first sections, told = first ++ sections ∧ first.Sublist omissionKeys ∧
      ∀ key ∈ sections, IsSectionKey key := by
  obtain ⟨sections, split, later⟩ := tells
  exact ⟨_, sections, split, raised_sublist _, later⟩

theorem Tells.count_le {key : String} (tells : Tells told headers description)
    (among : key ∈ omissionKeys) : told.count key ≤ 1 := by
  obtain ⟨sections, rfl, later⟩ := tells
  have absent : sections.count key = 0 :=
    List.count_eq_zero.mpr fun member => not_isSectionKey among (later key member)
  have once := (raised_sublist (omissions headers description)).count_le key
  rw [List.count_append, absent]
  exact once.trans (List.nodup_iff_count_le_one.mp omissionKeys_nodup key)

theorem mem_uselessTags {label : List Char} : label ∈ uselessTags ↔ IsUseless label := by
  simp [uselessTags, IsUseless]

theorem map_toList_ofList (texts : List (List Char)) :
    (texts.map String.ofList).map String.toList = texts := by
  simp [Function.comp_def]

theorem Tells.tagsKept (tells : Tells told headers description) :
    TagsKept (partsOf headers "tags")
      (((((partsOf headers "tags").map lower).filter (!uselessTags.contains ·)).take
        tagLimit).map .ofList) told := by
  have useful : (fun label => !uselessTags.contains label) =
      fun label => decide ¬IsUseless label := by
    funext label
    simp [mem_uselessTags]
  refine ⟨?_, ?_, ?_⟩
  · rw [map_toList_ofList, useful]
    rfl
  · rw [tells.mem_iff (List.mem_of_getElem? (i := 1) rfl), List.any_eq_true]
    simp [mem_uselessTags]
  · rw [tells.mem_iff (List.mem_of_getElem? (i := 2) rfl), decide_eq_true_iff, useful]
    rfl

theorem Tells.contributorsKept (tells : Tells told headers description) :
    ContributorsKept (partsOf headers "contributors")
      (((partsOf headers "contributors").filter isUsername).map .ofList)
      (((partsOf headers "contributors").filter (!isUsername ·)).map .ofList) told := by
  have named (name : List Char) : isUsername name = decide (IsAccountName name) := by
    rw [Bool.eq_iff_iff, isAccountName_iff, decide_eq_true_iff]
  refine ⟨?_, ?_, ?_⟩
  · rw [map_toList_ofList]
    exact List.filter_congr fun name _ => named name
  · rw [map_toList_ofList]
    exact List.filter_congr fun name _ => by rw [named, decide_not]
  · rw [tells.mem_iff (List.mem_of_getElem? (i := 3) rfl)]
    simp

theorem versionKept {form : List Char → Prop} {name key : String} {warning : Warning}
    (forms : ∀ value, isVersion value = true ↔ form value)
    (tells : key ∈ told ↔ unversioned headers name = true) :
    VersionKept form (headers.lookup name) (readVersion headers name warning).1 (key ∈ told) := by
  refine ⟨fun version => ?_, ?_⟩
  · rw [readVersion_eq_some_iff, forms]
  · rw [tells, unversioned, Option.any_eq_true]
    simp [← forms]

theorem Tells.descriptionKept (tells : Tells told headers description) :
    DescriptionKept description (.ofList (description.take descriptionLimit)) told := by
  refine ⟨?_, ?_, ?_⟩
  · rw [String.length_ofList]
    exact List.length_take_le _ _
  · exact String.toList_ofList
  · rw [tells.mem_iff (List.mem_of_getElem? (i := 0) rfl), decide_eq_true_iff,
      String.toList_ofList, Ne, List.take_eq_self_iff, Nat.not_le]

end Kept

/-- What is read of the headers and of the first paragraph, before it is looked at. -/
theorem ofChars_kept (source : List Char) (stableVersion recommendedPhp : String) :
    let readme := ofChars source stableVersion recommendedPhp
    let headers := readme.headers
    let version name key field kind sample :=
      (readVersion headers name (versionWarning key field kind sample)).1
    readme.tags = ((((partsOf headers "tags").map lower).filter (!uselessTags.contains ·)).take
        tagLimit).map .ofList ∧
      readme.contributors = ((partsOf headers "contributors").filter isUsername).map .ofList ∧
      readme.invalidContributors =
        ((partsOf headers "contributors").filter (!isUsername ·)).map .ofList ∧
      readme.tested = version "tested up to" "tested_header_ignored" "Tested up to"
        "valid WordPress version" stableVersion ∧
      readme.requires = version "requires at least" "requires_header_ignored"
        "Requires at least" "valid WordPress version" stableVersion ∧
      readme.requiresPhp = version "requires php" "requires_php_header_ignored" "Requires PHP"
        "PHP version" recommendedPhp ∧
      readme.shortDescription =
        .ofList ((paragraph (readTitle (linesOf source)).2).take descriptionLimit) := by
  intro readme headers version
  refine ⟨?_, rfl, rfl, rfl, rfl, rfl, ?_⟩
  · have read : readme.tags = (match headers.lookup "tags" with
        | some value => tagsOf value
        | none => ([], [])).1.map .ofList := rfl
    rw [read, tagsOf_header]
  · rw [← readOpening_paragraph]
    rfl

/-- What a readme keeps of its headers and of its first paragraph, and the warnings about the rest:
each is told exactly if something has been left out, at most once, and in a fixed order before the
warnings about sections. -/
theorem ofSource_omissions (source stableVersion recommendedPhp : String) :
    let readme := ofSource source stableVersion recommendedPhp
    let headers := readme.headers
    let told := readme.warnings.map Warning.key
    (∃ listed, Lists headers "tags" listed ∧ TagsKept listed readme.tags told) ∧
    (∃ listed, Lists headers "contributors" listed ∧
      ContributorsKept listed readme.contributors readme.invalidContributors told) ∧
    VersionKept IsHostVersion (headers.lookup "tested up to") readme.tested
      ("tested_header_ignored" ∈ told) ∧
    VersionKept IsHostVersion (headers.lookup "requires at least") readme.requires
      ("requires_header_ignored" ∈ told) ∧
    VersionKept IsPhpVersion (headers.lookup "requires php") readme.requiresPhp
      ("requires_php_header_ignored" ∈ told) ∧
    DescriptionKept (paragraph (readTitle (linesOf source.toList)).2) readme.shortDescription
      told ∧
    (∃ first sections, told = first ++ sections ∧ first.Sublist omissionKeys ∧
      ∀ key ∈ sections, IsSectionKey key) ∧
    ∀ key ∈ omissionKeys, told.count key ≤ 1 := by
  intro readme headers told
  have tells : Tells told headers (paragraph (readTitle (linesOf source.toList)).2) :=
    ⟨_, warnings_keys source.toList stableVersion recommendedPhp, sectionWarnings_keys _⟩
  have kept := ofChars_kept source.toList stableVersion recommendedPhp
  have read : ofChars source.toList stableVersion recommendedPhp = readme := rfl
  rw [read] at kept
  clear_value readme
  obtain ⟨tags, names, others, tested, requires, requiresPhp, description⟩ := kept
  have host (value : List Char) : isVersion value = true ↔ IsHostVersion value :=
    isVersion_iff_php.trans isHostVersion_iff.symm
  rw [tags, names, others, tested, requires, requiresPhp, description]
  exact ⟨⟨_, lists_iff.mpr rfl, tells.tagsKept⟩, ⟨_, lists_iff.mpr rfl, tells.contributorsKept⟩,
    versionKept host (tells.mem_iff (List.mem_of_getElem? (i := 4) rfl)),
    versionKept host (tells.mem_iff (List.mem_of_getElem? (i := 5) rfl)),
    versionKept (fun _ => isVersion_iff_php) (tells.mem_iff (List.mem_of_getElem? (i := 6) rfl)),
    tells.descriptionKept, tells.ordered, fun key among => tells.count_le among⟩

end Readme

end PluginAudit
