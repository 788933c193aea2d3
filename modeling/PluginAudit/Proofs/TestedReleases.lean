import Mathlib.Data.Prod.Lex
import PluginAudit.Check.Readme
import PluginAudit.Proofs.VersionText

/-!
The release with which a plugin has been tested, against the latest one. A readme may give it in
digits of any script and of any length; it is compared by the part of it that is read as two
numbers of 32 bits.
-/

namespace PluginAudit

namespace Text

/-- The value of a decimal digit of any script. The digits of a script follow one another. -/
def digitValue (c : Char) : Nat :=
  match digitRanges.find? fun r => r.1 ≤ c.toNat && c.toNat ≤ r.2 with
  | some r => (c.toNat - r.1) % 10
  | none => 0

/-- The number that digits write, however large it is. -/
def decimal (digits : List Char) : Nat := digits.foldl (fun n c => n * 10 + digitValue c) 0

theorem digitValue_ascii {c : Char} (digit : c.isDigit = true) : digitValue c = c.toNat - 48 := by
  obtain ⟨least, most⟩ := (isDigit_iff c).mp digit
  rw [digitValue, digitRanges, List.find?_cons_of_pos (by simpa using ⟨least, most⟩)]
  exact Nat.mod_eq_of_lt (by omega)

theorem foldl_digitValue {digits : List Char} (ascii : ∀ c ∈ digits, c.isDigit = true) (n : Nat) :
    digits.foldl (fun n c => n * 10 + digitValue c) n = Nat.ofDigitChars 10 digits n := by
  induction digits generalizing n with
  | nil => rfl
  | cons c rest ih =>
    obtain ⟨first, later⟩ := List.forall_mem_cons.mp ascii
    have zero : '0'.toNat = 48 := rfl
    rw [List.foldl_cons, ih later, Nat.ofDigitChars_cons, digitValue_ascii first, zero, Nat.mul_comm]

theorem decimal_append_le (digits more : List Char) : decimal digits ≤ decimal (digits ++ more) := by
  have grows (n : Nat) : n ≤ more.foldl (fun n c => n * 10 + digitValue c) n := by
    induction more generalizing n with
    | nil => exact Nat.le_refl n
    | cons c rest ih => exact Nat.le_trans (by omega) (ih (n * 10 + digitValue c))
  rw [decimal, decimal, List.foldl_append]
  exact grows _

theorem isDigit_ascii {c : Char} (digit : c.isDigit = true) : isDigit c = true := by
  obtain ⟨-, most⟩ := (isDigit_iff c).mp digit
  rw [isDigit, if_pos (by omega), digit]

theorem isBlank_anyDigit {c : Char} (digit : isDigit c = true) : isBlank c = false := by
  rw [isDigit] at digit
  split at digit
  · exact isBlank_digit digit
  · obtain ⟨r, member, inside⟩ := List.any_eq_true.mp digit
    have apart : ∀ r ∈ digitRanges, r.2 < 0x80 ∨ 0xA0 < r.1 ∧ r.2 < 0x1680 ∨
        0x1680 < r.1 ∧ r.2 < 0x2000 ∨ 0x3000 < r.1 := by decide
    have range := apart r member
    simp only [Bool.and_eq_true, decide_eq_true_eq] at inside
    simp only [isBlank, Bool.or_eq_false_iff, Bool.and_eq_false_iff, decide_eq_false_iff_not,
      beq_eq_false_iff_ne]
    omega

/-- Of texts in digits those are read that are in ASCII digits and write a small number. -/
theorem natural?_digits (bound : Nat) {text : List Char}
    (digits : ∀ c ∈ text, isDigit c = true) :
    natural? bound text =
      if text ≠ [] ∧ text.all Char.isDigit = true ∧ decimal text < bound then some (decimal text)
      else none := by
  have unsigned (rest : List Char) : text ≠ '+' :: rest := by
    rintro rfl
    exact absurd (digits '+' List.mem_cons_self) (by decide)
  unfold natural?
  split
  · exact absurd rfl (unsigned _)
  · by_cases readable : text ≠ [] ∧ text.all Char.isDigit = true
    · obtain ⟨some, ascii⟩ := readable
      have value : text.foldl (fun n c => min (n * 10 + (c.toNat - 48)) bound) 0 =
          min (decimal text) bound := by
        have read := foldl_min bound text 0
        rwa [Nat.zero_min, ← foldl_digitValue (List.all_eq_true.mp ascii)] at read
      have plain : (text.isEmpty || !text.all Char.isDigit) = false := by simp [ascii, some]
      simp only [plain, value, Bool.false_eq_true, if_false]
      by_cases small : decimal text < bound
      · rw [Nat.min_eq_left (Nat.le_of_lt small), if_pos small, if_pos ⟨some, ascii, small⟩]
      · rw [Nat.min_eq_right (Nat.not_lt.mp small), if_neg (Nat.lt_irrefl _),
          if_neg fun h => small h.2.2]
    · have refused : (text.isEmpty || !text.all Char.isDigit) = true := by
        by_cases empty : text = []
        · simp [empty]
        · simpa [empty] using readable
      rw [if_pos refused, if_neg fun h => readable ⟨h.1, h.2.1⟩]

theorem mem_of_splitAt (mark : Char) {c : Char} {cs : List Char} (member : c ∈ cs) :
    c = mark ∨ ∃ part ∈ splitAt mark cs, c ∈ part := by
  induction cs with
  | nil => cases member
  | cons d rest ih =>
    obtain ⟨part, parts, parted⟩ := List.exists_cons_of_ne_nil (splitAt_ne_nil mark rest)
    simp only [splitAt, parted] at ih ⊢
    rcases List.mem_cons.mp member with rfl | later
    · by_cases same : c = mark
      · exact .inl same
      · exact .inr ⟨c :: part, by simp [same], List.mem_cons_self⟩
    · refine (ih later).imp_right ?_
      rintro ⟨q, among, inside⟩
      by_cases same : d = mark
      · exact ⟨q, by rw [if_pos same]; exact List.mem_cons_of_mem [] among, inside⟩
      · rcases List.mem_cons.mp among with rfl | others
        · exact ⟨d :: q, by simp [same], List.mem_cons_of_mem d inside⟩
        · exact ⟨q, by simp [same, others], inside⟩

end Text

namespace Version

open Text

/-- The first two groups of a dotted version. -/
def groups (version : List Char) : List Char × List Char :=
  match splitAt '.' version with
  | major :: minor :: _ => (major, minor)
  | [major] => (major, [])
  | [] => ([], [])

/-- The two numbers that are written. -/
def written (version : List Char) : Nat × Nat :=
  (decimal (groups version).1, decimal (groups version).2)

/-- What is taken of the second group: the ASCII digits at its head. -/
def minorHead (version : List Char) : List Char := (groups version).2.takeWhile Char.isDigit

/-- The two numbers as they are taken. -/
def taken (version : List Char) : Nat × Nat :=
  (decimal (groups version).1, decimal (minorHead version))

/-- What is taken is in ASCII digits and has 32 bits. -/
def Readable (version : List Char) : Prop :=
  (groups version).1.all Char.isDigit = true ∧ (taken version).1 < numberBound ∧
    minorHead version ≠ [] ∧ (taken version).2 < numberBound

instance (version : List Char) : Decidable (Readable version) :=
  inferInstanceAs (Decidable (_ ∧ _ ∧ _ ∧ _))

/-- What is taken is what is written, or as good: beyond the last minor number no release can be the
latest one. -/
def Legible (version : List Char) : Prop :=
  Readable version ∧ (taken version = written version ∨ (taken version).2 + 1 = numberBound)

instance (version : List Char) : Decidable (Legible version) :=
  inferInstanceAs (Decidable (_ ∧ (_ ∨ _)))

theorem taken_le_written (version : List Char) : (taken version).2 ≤ (written version).2 := by
  have whole := decimal_append_le (minorHead version)
    ((groups version).2.dropWhile Char.isDigit)
  rwa [minorHead, List.takeWhile_append_dropWhile] at whole

/-- Of the versions that a readme may give, the readable ones are read. -/
theorem pair?_isVersion {version : List Char} (valid : Readme.isVersion version = true) :
    pair? version = if Readable version then some (taken version) else none := by
  obtain ⟨few, all⟩ := Bool.and_eq_true_iff.mp valid
  have digits : ∀ part ∈ splitAt '.' version, part ≠ [] ∧ ∀ c ∈ part, isDigit c = true := by
    simpa [List.all_eq_true] using all
  have solid : ∀ c ∈ version, isBlank c = false := by
    intro c member
    rcases mem_of_splitAt '.' member with rfl | ⟨part, among, inside⟩
    · decide
    · exact isBlank_anyDigit ((digits part among).2 c inside)
  obtain ⟨major, minor, patch, parts⟩ : ∃ major minor patch,
      splitAt '.' version = major :: minor :: patch := by
    cases parts : splitAt '.' version with
    | nil => simp [parts] at few
    | cons major rest =>
      cases rest with
      | nil => simp [parts] at few
      | cons minor patch => exact ⟨major, minor, patch, rfl⟩
  rw [parts] at digits
  obtain ⟨some, first⟩ := digits major (by simp)
  have second : (minor.takeWhile Char.isDigit).all Char.isDigit = true := List.all_takeWhile
  have split : groups version = (major, minor) := by rw [groups, parts]
  have readsMajor := natural?_digits numberBound first
  have readsMinor := natural?_digits numberBound fun c member =>
    isDigit_ascii (List.all_eq_true.mp second c member)
  simp only [pair?, trim_solid solid, parts, number?, Readable, taken, minorHead, split]
  by_cases ascii : major.all Char.isDigit = true ∧ decimal major < numberBound
  · rw [if_pos ⟨some, ascii⟩] at readsMajor
    by_cases head : minor.takeWhile Char.isDigit ≠ [] ∧
        decimal (minor.takeWhile Char.isDigit) < numberBound
    · rw [if_pos ⟨head.1, second, head.2⟩] at readsMinor
      rw [readsMajor, readsMinor, if_pos ⟨ascii.1, ascii.2, head⟩]
      rfl
    · rw [if_neg fun h => head ⟨h.1, h.2.2⟩] at readsMinor
      rw [readsMajor, readsMinor, if_neg fun h => head h.2.2]
      rfl
  · rw [if_neg fun h => ascii h.2] at readsMajor
    rw [readsMajor, if_neg fun h => ascii ⟨h.1, h.2.1⟩]
    rfl

theorem lessPair_iff (p q : Nat × Nat) : lessPair p q = true ↔ toLex p < toLex q := by
  simp [lessPair, Prod.Lex.toLex_lt_toLex]

end Version

/-- What is accepted as a version is the value of the header. -/
theorem Readme.readVersion_eq_some {headers : List (String × String)} {header value : String}
    {warning : Warning} (accepted : (readVersion headers header warning).1 = some value) :
    headers.lookup header = some value ∧ isVersion value.toList = true := by
  unfold readVersion at accepted
  split at accepted
  · cases accepted
  · rename_i given
    split at accepted
    · cases accepted
      exact ⟨given, by assumption⟩
    · cases accepted

namespace ReadmeCheck

open Version

def outdatedCode : String := "outdated_tested_upto_header"

def nonexistentCode : String := "nonexistent_tested_upto_header"

/-- What the codes tell of the tested release `tested`: that it is before the latest one, or that it
is after the one that follows. -/
structure Tells (codes : List String) (tested latest : Nat × Nat) : Prop where
  outdated : outdatedCode ∈ codes ↔ toLex tested < toLex latest
  nonexistent : nonexistentCode ∈ codes ↔ toLex (following latest) < toLex tested
  single : codes.length ≤ 1

/-- What comes of comparing releases: their order is told, unless the release after the latest one
is needed and has no number. -/
structure Classified (came : Except Breakdown (List Finding)) (tested latest : Nat × Nat) :
    Prop where
  told : toLex tested < toLex latest ∨ ¬IsLast latest →
    ∃ found, came = .ok found ∧ Tells (found.map (·.code)) tested latest
  unnumbered : toLex latest ≤ toLex tested → IsLast latest → came = .error .overflow

/-- Whichever release is the latest one, the release `tested` is classified. -/
def Classifies (readme : Readme) (tested : Nat × Nat) : Prop :=
  ∀ (versions : ReleaseInfo) (latest : Nat × Nat),
    (versions.latest.bind fun v => pair? v.toList) = some latest →
      Classified (testedFindings readme versions) tested latest

theorem lt_following (p : Nat × Nat) : toLex p < toLex (following p) := by
  rw [Prod.Lex.toLex_lt_toLex, following]
  split <;> simp

theorem tells_outdated {tested latest : Nat × Nat} (older : toLex tested < toLex latest) :
    Tells [outdatedCode] tested latest where
  outdated := iff_of_true (List.mem_singleton_self _) older
  nonexistent := iff_of_false (by decide) (lt_asymm (older.trans (lt_following latest)))
  single := Nat.le_refl 1

theorem tells_nonexistent {tested latest : Nat × Nat} (current : toLex latest ≤ toLex tested)
    (newer : toLex (following latest) < toLex tested) : Tells [nonexistentCode] tested latest where
  outdated := iff_of_false (by decide) (not_lt.mpr current)
  nonexistent := iff_of_true (List.mem_singleton_self _) newer
  single := Nat.le_refl 1

theorem tells_nil {tested latest : Nat × Nat} (current : toLex latest ≤ toLex tested)
    (known : toLex tested ≤ toLex (following latest)) : Tells [] tested latest where
  outdated := iff_of_false List.not_mem_nil (not_lt.mpr current)
  nonexistent := iff_of_false List.not_mem_nil (not_lt.mpr known)
  single := Nat.zero_le 1

/-- Two numbers that are read are classified for what they are. -/
theorem classifies_read {readme : Readme} {tested : String} {read : Nat × Nat}
    (given : readme.tested = some tested) (reads : pair? tested.toList = some read) :
    Classifies readme read := by
  intro versions latest known
  obtain ⟨version, -, pair⟩ := Option.bind_eq_some_iff.mp known
  have major := (pair?_lt pair).1
  by_cases older : toLex read < toLex latest
  · refine ⟨fun _ => ?_, fun current => absurd older (not_lt.mpr current)⟩
    simp only [testedFindings, given, reads, known, (lessPair_iff read latest).mpr older, if_true]
    exact ⟨_, rfl, tells_outdated older⟩
  · have current := not_lt.mp older
    have newer' : lessPair read latest = false :=
      Bool.eq_false_iff.mpr (mt (lessPair_iff read latest).mp older)
    simp only [testedFindings, given, reads, known, newer', Bool.false_eq_true, if_false]
    by_cases last : IsLast latest
    · rw [(next?_eq_none_iff major).mpr last]
      exact ⟨fun h => absurd last (h.resolve_left older), fun _ _ => rfl⟩
    · rw [(next?_eq_some_iff major).mpr ⟨last, rfl⟩]
      refine ⟨fun _ => ⟨_, rfl, ?_⟩, fun _ h => absurd h last⟩
      by_cases newer : toLex (following latest) < toLex read
      · rw [if_pos ((lessPair_iff _ read).mpr newer)]
        exact tells_nonexistent current newer
      · rw [if_neg (mt (lessPair_iff _ read).mp newer)]
        exact tells_nil current (not_lt.mp newer)

/-- Numbers that no latest release tells apart. -/
theorem Classified.congr {came : Except Breakdown (List Finding)} {read tested latest : Nat × Nat}
    (classified : Classified came read latest) (bounded : latest.2 < numberBound)
    (major : read.1 = tested.1)
    (minor : read.2 = tested.2 ∨ read.2 < tested.2 ∧ read.2 + 1 = numberBound) :
    Classified came tested latest := by
  have bound : numberBound = 4294967296 := rfl
  have older : toLex read < toLex latest ↔ toLex tested < toLex latest := by
    rw [Prod.Lex.toLex_lt_toLex, Prod.Lex.toLex_lt_toLex]
    omega
  have newer : toLex (following latest) < toLex read ↔
      toLex (following latest) < toLex tested := by
    rw [Prod.Lex.toLex_lt_toLex, Prod.Lex.toLex_lt_toLex, following]
    split
    · simp only
      omega
    · omega
  have current : toLex latest ≤ toLex read ↔ toLex latest ≤ toLex tested := by
    rw [← not_lt, older, not_lt]
  refine ⟨fun h => ?_, fun h => classified.unnumbered (current.mpr h)⟩
  obtain ⟨found, same, tells⟩ := classified.told (h.imp_left older.mpr)
  exact ⟨found, same, tells.outdated.trans older, tells.nonexistent.trans newer, tells.single⟩

section Refuted

variable {readme : Readme} {read tested : Nat × Nat}

theorem Classifies.against (classifies : Classifies readme tested) (latest : Nat × Nat)
    (major : latest.1 < numberBound) (minor : latest.2 < numberBound) (more : ¬IsLast latest) :
    ∃ found, testedFindings readme (.ofLatest (pairText latest)) = .ok found ∧
      Tells (found.map (·.code)) tested latest := by
  refine (classifies (.ofLatest (pairText latest)) latest ?_).told (.inr more)
  rw [ReleaseInfo.ofLatest, Option.bind_some, pair?_pairText major minor]

/-- To find nothing, whichever release is the latest one, is wrong for every tested release. -/
theorem not_classifies_silent (silent : ∀ versions, testedFindings readme versions = .ok []) :
    ¬Classifies readme tested := by
  intro classifies
  obtain ⟨found, none, first⟩ := classifies.against (0, 0) (by decide) (by decide)
    (by simp [IsLast])
  obtain ⟨found', none', second⟩ := classifies.against (1, 0) (by decide) (by decide)
    (by simp [IsLast])
  obtain rfl : [] = found := Except.ok.inj ((silent _).symm.trans none)
  obtain rfl : [] = found' := Except.ok.inj ((silent _).symm.trans none')
  have known := mt first.nonexistent.mpr List.not_mem_nil
  have current := mt second.outdated.mpr List.not_mem_nil
  have next : following (0, 0) = (0, 1) := rfl
  rw [Prod.Lex.toLex_lt_toLex] at known current
  simp only [next] at known current
  omega

/-- A latest release after the one that is read and not after the one that is written. -/
theorem not_classifies_apart (classifies : Classifies readme read) (fits : read.1 < numberBound)
    (major : read.1 = tested.1) (less : read.2 < tested.2) (room : read.2 + 1 < numberBound) :
    ¬Classifies readme tested := by
  intro classifies'
  have older : toLex read < toLex (read.1, read.2 + 1) :=
    Prod.Lex.toLex_lt_toLex.mpr (.inr ⟨rfl, Nat.lt_succ_self _⟩)
  have known : ((ReleaseInfo.ofLatest (pairText (read.1, read.2 + 1))).latest.bind
      fun v => pair? v.toList) = some (read.1, read.2 + 1) :=
    pair?_pairText (p := (read.1, read.2 + 1)) fits room
  obtain ⟨found, came, tells⟩ := (classifies _ _ known).told (.inl older)
  have outdated := tells.outdated.mpr older
  by_cases older' : toLex tested < toLex (read.1, read.2 + 1)
  · rw [Prod.Lex.toLex_lt_toLex] at older'
    simp only at older'
    omega
  · by_cases last : IsLast (read.1, read.2 + 1)
    · rw [(classifies' _ _ known).unnumbered (not_lt.mp older') last] at came
      cases came
    · obtain ⟨found', came', tells'⟩ := (classifies' _ _ known).told (.inr last)
      obtain rfl : found = found' := Except.ok.inj (came.symm.trans came')
      exact older' (tells'.outdated.mp outdated)

end Refuted

/-- A readme is accepted with any version that it gives. What of it can be read is classified, and
of the others nothing is found. So what it gives is classified for what it is if and only if it is
legible. -/
theorem tested_classified {source : List Char} {stable php tested : String}
    (accepted : (Readme.ofChars source stable php).tested = some tested) :
    let readme := Readme.ofChars source stable php
    (Readable tested.toList → Classifies readme (taken tested.toList)) ∧
      (¬Readable tested.toList → ∀ versions, testedFindings readme versions = .ok []) ∧
      (Classifies readme (written tested.toList) ↔ Legible tested.toList) := by
  intro readme
  obtain ⟨-, valid⟩ := Readme.readVersion_eq_some accepted
  have reads := pair?_isVersion valid
  have readable (r : Readable tested.toList) : Classifies readme (taken tested.toList) :=
    classifies_read accepted (reads.trans (if_pos r))
  have silent (r : ¬Readable tested.toList) (versions : ReleaseInfo) :
      testedFindings readme versions = .ok [] := by
    simp only [testedFindings, readme, accepted, reads, if_neg r]
  refine ⟨readable, silent, fun classifies => ?_, ?_⟩
  · by_cases r : Readable tested.toList
    · refine ⟨r, ?_⟩
      by_contra apart
      obtain ⟨differ, room⟩ := not_or.mp apart
      have less : (taken tested.toList).2 < (written tested.toList).2 :=
        Nat.lt_of_le_of_ne (taken_le_written _) fun same => differ (Prod.ext rfl same)
      have small : (taken tested.toList).2 < numberBound := r.2.2.2
      have refuted : ¬Classifies readme (written tested.toList) :=
        not_classifies_apart (readable r) r.2.1 rfl less (by omega)
      exact refuted classifies
    · exact absurd classifies (not_classifies_silent (silent r))
  · rintro ⟨r, same⟩ versions latest known
    obtain ⟨version, -, pair⟩ := Option.bind_eq_some_iff.mp known
    refine (readable r versions latest known).congr (pair?_lt pair).2 rfl ?_
    have least := taken_le_written tested.toList
    rcases same with same | last
    · exact .inl (congrArg Prod.snd same)
    · rcases Nat.lt_or_eq_of_le least with less | equal
      · exact .inr ⟨less, last⟩
      · exact .inl equal

/-- A readme that gives nothing but the release it has been tested with. -/
def testedWith (version : String) : Readme :=
  .ofChars ("=== Demo ===\nTested up to: " ++ version ++ "\n").toList "6.7" "7.4"

/-- A number that is too large, one that goes on in digits of another script, and one that is read
as it is written. -/
theorem tested_classified_unread :
    ((testedWith "99999999999.0").tested = some "99999999999.0" ∧
        (∀ versions, testedFindings (testedWith "99999999999.0") versions = .ok []) ∧
        ¬Classifies (testedWith "99999999999.0") (99999999999, 0)) ∧
      ((testedWith "6.7\u0663").tested = some "6.7\u0663" ∧
        ¬Classifies (testedWith "6.7\u0663") (6, 73)) ∧
      Classifies (testedWith "6.7") (6, 7) := by
  have large : (testedWith "99999999999.0").tested = some "99999999999.0" := by decide +kernel
  have mixed : (testedWith "6.7\u0663").tested = some "6.7\u0663" := by decide +kernel
  have plain : (testedWith "6.7").tested = some "6.7" := by decide +kernel
  obtain ⟨-, silent, exact⟩ := tested_classified large
  obtain ⟨-, -, exact'⟩ := tested_classified mixed
  obtain ⟨readable, -, -⟩ := tested_classified plain
  refine ⟨⟨large, silent (by decide +kernel), ?_⟩, ⟨mixed, ?_⟩, ?_⟩
  · have written : written "99999999999.0".toList = (99999999999, 0) := by decide +kernel
    rw [← written]
    exact mt exact.mp (by decide +kernel)
  · have written : written "6.7\u0663".toList = (6, 73) := by decide +kernel
    rw [← written]
    exact mt exact'.mp (by decide +kernel)
  · have taken : taken "6.7".toList = (6, 7) := by decide +kernel
    rw [← taken]
    exact readable (by decide +kernel)

end ReadmeCheck

end PluginAudit
