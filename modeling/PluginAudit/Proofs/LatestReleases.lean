import PluginAudit.Proofs.ReadmeRules
import PluginAudit.Proofs.TestedReleases

/-!
The latest release: how it is quoted, how it is compared with, and the release that follows it. What
is compared with is quoted as well, but a release that has a suffix right behind its major number is
quoted and not compared with. The release that follows is the greater one, except for the last that
a number of 32 bits can tell.
-/

namespace PluginAudit

namespace Text

theorem dropEndWhile_append_cons {p : Char → Bool} {c : Char} (kept : p c = false)
    (cs more : List Char) : dropEndWhile p (cs ++ c :: more) = cs ++ c :: dropEndWhile p more := by
  induction cs with
  | nil =>
    rw [List.nil_append, List.nil_append, dropEndWhile]
    cases dropEndWhile p more with
    | nil => simp [kept]
    | cons d rest => rfl
  | cons d rest ih =>
    rw [List.cons_append, dropEndWhile, ih]
    cases written : rest ++ c :: dropEndWhile p more with
    | nil => simp at written
    | cons e others => simp [written]

/-- A head of other characters is not concerned when an end is cut. -/
theorem takeWhile_dropEndWhile {p q : Char → Bool} (apart : ∀ c, q c = true → p c = false)
    (cs : List Char) : (dropEndWhile p cs).takeWhile q = cs.takeWhile q := by
  induction cs with
  | nil => rfl
  | cons c rest ih =>
    rw [dropEndWhile, List.takeWhile_cons, ← ih]
    by_cases inside : q c = true
    · rw [if_pos inside]
      cases dropEndWhile p rest with
      | nil => simp [apart c inside, inside]
      | cons d others => simp [inside]
    · rw [if_neg inside]
      cases dropEndWhile p rest with
      | nil => by_cases dropped : p c = true <;> simp [dropped, inside]
      | cons d others => simp [inside]

theorem takeWhile_append_cons {p : Char → Bool} {c : Char} (ends : p c = false)
    (cs more : List Char) : (cs ++ c :: more).takeWhile p = cs.takeWhile p := by
  induction cs with
  | nil => simp [ends]
  | cons d rest ih => rw [List.cons_append, List.takeWhile_cons, List.takeWhile_cons, ih]

theorem takeWhile_head_splitAt {p : Char → Bool} {mark : Char} (ends : p mark = false)
    {cs part : List Char} {parts : List (List Char)} (parted : splitAt mark cs = part :: parts) :
    part.takeWhile p = cs.takeWhile p := by
  by_cases marked : mark ∈ cs
  · obtain ⟨first, rest, rfl, none⟩ := List.eq_append_cons_of_mem marked
    rw [splitAt_append none] at parted
    obtain ⟨rfl, -⟩ := List.cons.inj parted
    exact (takeWhile_append_cons ends first rest).symm
  · rw [splitAt_line marked] at parted
    rw [(List.cons.inj parted).1]

theorem mem_trim {c : Char} {cs : List Char} (member : c ∈ trim cs) : c ∈ cs := by
  obtain ⟨before, after, written, -, -⟩ := trim_append cs
  rw [written]
  exact List.mem_append_left _ (List.mem_append_right _ member)

theorem mem_trim_solid {c : Char} {cs : List Char} (member : c ∈ cs) (solid : isBlank c = false) :
    c ∈ trim cs := by
  obtain ⟨before, after, written, blanks, blanks'⟩ := trim_append cs
  rw [written] at member
  rcases List.mem_append.mp member with front | last
  · rcases List.mem_append.mp front with first | inside
    · exact absurd (blanks c first) (Bool.eq_false_iff.mp solid)
    · exact inside
  · exact absurd (blanks' c last) (Bool.eq_false_iff.mp solid)

theorem mem_trimStart_solid {c : Char} {cs : List Char} (member : c ∈ cs)
    (solid : isBlank c = false) : c ∈ trimStart cs :=
  (dropEndWhile_begins isBlank _).subset (mem_trim_solid member solid)

theorem natural?_eq_none {bound : Nat} {text : List Char} {c : Char} (member : c ∈ text)
    (noDigit : c.isDigit = false) (unsigned : c ≠ '+') : natural? bound text = none := by
  have refused : ∀ digits : List Char, c ∈ digits →
      (digits.isEmpty || !digits.all Char.isDigit) = true := by
    intro digits inside
    have foreign : digits.all Char.isDigit = false :=
      List.all_eq_false.mpr ⟨c, inside, Bool.eq_false_iff.mp noDigit⟩
    rw [foreign, Bool.not_false, Bool.or_true]
  unfold natural?
  split
  · rename_i rest
    exact if_pos (refused rest ((List.mem_cons.mp member).resolve_left unsigned))
  · exact if_pos (refused _ member)

end Text

namespace Version

open Text

/-- A version without the suffix of a preliminary release. -/
def released (version : List Char) : List Char := version.takeWhile (· != '-')

/-- The suffix of a preliminary release follows the major number `n` at once. -/
def SuffixedMajor (version : List Char) (n : Nat) : Prop :=
  '-' ∈ version ∧ '.' ∉ released version ∧ number? (trim (released version)) = some n

theorem pair?_undotted {major : List Char} (undotted : '.' ∉ major) :
    pair? major = (number? (trim major)).map (·, 0) := by
  have whole : splitAt '.' (trim major) = [trim major] :=
    splitAt_line fun member => undotted (mem_trim member)
  rw [pair?, whole]

theorem pair?_dotted {major : List Char} (undotted : '.' ∉ major) (rest : List Char) :
    pair? (major ++ '.' :: rest) = (number? (trimStart major)).bind fun a =>
      (number? (rest.takeWhile Char.isDigit)).map fun b => (a, b) := by
  have solid : isBlank '.' = false := by decide
  have trimmed : trim (major ++ '.' :: rest) = trimStart major ++ '.' :: trimEnd rest := by
    rw [trim, trimStart, dropWhile_append_cons solid]
    exact dropEndWhile_append_cons solid _ rest
  have first : '.' ∉ trimStart major := fun member =>
    undotted ((List.dropWhile_suffix isBlank).subset member)
  obtain ⟨minor, patch, parted⟩ :=
    List.exists_cons_of_ne_nil (splitAt_ne_nil '.' (trimEnd rest))
  have digits : minor.takeWhile Char.isDigit = rest.takeWhile Char.isDigit := by
    rw [takeWhile_head_splitAt (by decide) parted]
    exact takeWhile_dropEndWhile (fun c => isBlank_digit) rest
  rw [pair?, trimmed, splitAt_append first, parted]
  simp only [digits]
  cases number? (trimStart major) <;> cases number? (rest.takeWhile Char.isDigit) <;> rfl

/-- With a hyphen in it, what stands before the first dot is no number. -/
theorem pair?_hyphened {first : List Char} (undotted : '.' ∉ first) (suffix : List Char) :
    pair? (first ++ '-' :: suffix) = none := by
  have refused {text : List Char} (member : '-' ∈ text) : number? text = none :=
    natural?_eq_none member (by decide) (by decide)
  have hyphen {more : List Char} : '-' ∈ first ++ '-' :: more :=
    List.mem_append_right _ List.mem_cons_self
  have solid : isBlank '-' = false := by decide
  -- The hyphen is in what is read as the major number, whether or not a dot ends that.
  by_cases dotted : '.' ∈ suffix
  · obtain ⟨before, after, rfl, none⟩ := List.eq_append_cons_of_mem dotted
    have major : '.' ∉ first ++ '-' :: before := by
      simp only [List.mem_append, List.mem_cons, not_or]
      exact ⟨undotted, by decide, none⟩
    rw [← List.cons_append, ← List.append_assoc, pair?_dotted major,
      refused (mem_trimStart_solid hyphen solid)]
    rfl
  · have whole : '.' ∉ first ++ '-' :: suffix := by
      simp only [List.mem_append, List.mem_cons, not_or]
      exact ⟨undotted, by decide, dotted⟩
    rw [pair?_undotted whole, refused (mem_trim_solid hyphen solid)]
    rfl

theorem released_unsuffixed {version : List Char} (plain : '-' ∉ version) :
    released version = version := by
  refine List.takeWhile_eq_self_iff.mpr fun c member => ?_
  simpa using ne_of_mem_of_not_mem member plain

theorem released_suffixed {first : List Char} (plain : '-' ∉ first) (suffix : List Char) :
    released (first ++ '-' :: suffix) = first :=
  (takeWhile_append_cons (by decide) first suffix).trans (released_unsuffixed plain)

theorem released_released (version : List Char) : released (released version) = released version :=
  List.takeWhile_eq_self_iff.mpr fun _ member => @List.mem_takeWhile_imp _ (· != '-') _ _ member

theorem pair?_suffixedMajor {version : List Char} {n : Nat} (suffixed : SuffixedMajor version n) :
    pair? (released version) = some (n, 0) ∧ pair? version = none := by
  obtain ⟨hyphen, undotted, major⟩ := suffixed
  obtain ⟨first, suffix, rfl, plain⟩ := List.eq_append_cons_of_mem hyphen
  rw [released_suffixed plain] at undotted major ⊢
  exact ⟨by rw [pair?_undotted undotted, major]; rfl, pair?_hyphened undotted suffix⟩

/-- A suffix in another place is not read in the whole version either. -/
theorem pair?_released {version : List Char} (other : ¬∃ n, SuffixedMajor version n) :
    pair? (released version) = pair? version := by
  by_cases hyphen : '-' ∈ version
  · obtain ⟨first, suffix, rfl, plain⟩ := List.eq_append_cons_of_mem hyphen
    by_cases dotted : '.' ∈ first
    · obtain ⟨major, rest, rfl, undotted⟩ := List.eq_append_cons_of_mem dotted
      rw [released_suffixed plain, List.append_assoc, List.cons_append, pair?_dotted undotted,
        pair?_dotted undotted, takeWhile_append_cons (by decide) rest suffix]
    · rw [pair?_hyphened dotted, released_suffixed plain, pair?_undotted dotted]
      cases read : number? (trim first) with
      | none => rfl
      | some n =>
        refine absurd ⟨n, hyphen, ?_⟩ other
        rw [released_suffixed plain]
        exact ⟨dotted, read⟩
  · rw [released_unsuffixed hyphen]

theorem released_pairText (p : Nat × Nat) : released (pairText p).toList = (pairText p).toList := by
  refine released_unsuffixed fun member => ?_
  simp only [pairText, String.toList_append, List.mem_append] at member
  rcases member with (first | dot) | second
  · exact absurd (digits_repr _ _ first) (by decide)
  · exact absurd dot (by decide)
  · exact absurd (digits_repr _ _ second) (by decide)

theorem stable_of_pair {version : String} {p : Nat × Nat}
    (read : pair? (released version.toList) = some p) : stable version = pairText p := by
  rw [released] at read
  simp only [stable, read]

theorem stable_of_none {version : String} (none : pair? (released version.toList) = none) :
    stable version = .ofList (released version.toList) := by
  rw [released] at none
  simp only [stable, none, released]

theorem pair?_stable (version : String) :
    pair? (stable version).toList = pair? (released version.toList) := by
  cases read : pair? (released version.toList) with
  | none => rw [stable_of_none read, String.toList_ofList, read]
  | some p =>
    obtain ⟨major, minor⟩ := pair?_lt read
    rw [stable_of_pair read, pair?_pairText major minor]

theorem released_stable (version : String) :
    released (stable version).toList = (stable version).toList := by
  cases read : pair? (released version.toList) with
  | none => rw [stable_of_none read, String.toList_ofList, released_released]
  | some p => rw [stable_of_pair read, released_pairText]

theorem stable_stable (version : String) : stable (stable version) = stable version := by
  have again : pair? (released (stable version).toList) = pair? (released version.toList) := by
    rw [released_stable, pair?_stable]
  cases read : pair? (released version.toList) with
  | none => rw [stable_of_none (again.trans read), released_stable, String.ofList_toList]
  | some p => rw [stable_of_pair (again.trans read), stable_of_pair read]

theorem following_lt {p q : Nat × Nat} (minor : p.2 ≤ 9) (minor' : q.2 ≤ 9)
    (less : toLex p < toLex q) : toLex (following p) < toLex (following q) := by
  rw [Prod.Lex.toLex_lt_toLex] at less
  rw [Prod.Lex.toLex_lt_toLex, following, following]
  split <;> split <;> simp only <;> omega

end Version

namespace ReadmeCheck

open Version

theorem testedFindings_unknown {readme : Readme} {version : String}
    (unread : pair? version.toList = none) : testedFindings readme (.ofLatest version) = .ok [] := by
  unfold testedFindings
  split
  · rfl
  · rename_i tested given
    simp only [ReleaseInfo.ofLatest, Option.bind_some, unread]
    cases pair? tested.toList <;> rfl

/-- The version that is quoted to users is quoted again as it is. What is compared with is what is
quoted, unless a suffix follows the major number at once: that version is quoted without the suffix,
and no readme is compared with it. -/
theorem quoted_compared (version : String) :
    stable (stable version) = stable version ∧
      (∀ p, pair? version.toList = some p → stable version = pairText p) ∧
      (pair? (stable version).toList = pair? version.toList ↔
        ¬∃ n, SuffixedMajor version.toList n) ∧
      ∀ n, SuffixedMajor version.toList n →
        stable version = pairText (n, 0) ∧ pair? version.toList = none ∧
          ∀ readme, testedFindings readme (.ofLatest version) = .ok [] := by
  have plain (other : ¬∃ n, SuffixedMajor version.toList n) :
      pair? (stable version).toList = pair? version.toList :=
    (pair?_stable version).trans (pair?_released other)
  refine ⟨stable_stable version, fun p read => ?_, ⟨fun agree => ?_, plain⟩, ?_⟩
  · have other : ¬∃ n, SuffixedMajor version.toList n := by
      rintro ⟨n, suffixed⟩
      rw [(pair?_suffixedMajor suffixed).2] at read
      cases read
    exact stable_of_pair ((pair?_released other).trans read)
  · rintro ⟨n, suffixed⟩
    obtain ⟨quoted, silent⟩ := pair?_suffixedMajor suffixed
    rw [pair?_stable, quoted, silent] at agree
    cases agree
  · intro n suffixed
    obtain ⟨quoted, silent⟩ := pair?_suffixedMajor suffixed
    exact ⟨stable_of_pair quoted, silent, fun readme => testedFindings_unknown silent⟩

/-- A suffix behind the major number, one behind the minor number, and none. -/
theorem quoted_compared_suffixes :
    (stable "7-RC1" = "7.0" ∧ pair? "7-RC1".toList = none ∧
        pair? (stable "7-RC1").toList ≠ pair? "7-RC1".toList ∧
        testedFindings (testedWith "6.0") (.ofLatest "7-RC1") = .ok []) ∧
      (stable "6.7.1-RC1" = "6.7" ∧
        pair? (stable "6.7.1-RC1").toList = pair? "6.7.1-RC1".toList) ∧
      stable (stable "trunk-1") = stable "trunk-1" := by
  obtain ⟨-, -, agree, silent⟩ := quoted_compared "7-RC1"
  obtain ⟨-, quoted, agree', -⟩ := quoted_compared "6.7.1-RC1"
  have suffixed : SuffixedMajor "7-RC1".toList 7 := ⟨by decide, by decide, by decide⟩
  obtain ⟨written, unread, uncompared⟩ := silent 7 suffixed
  refine ⟨⟨written, unread, fun same => agree.mp same ⟨7, suffixed⟩, uncompared _⟩,
    ⟨quoted (6, 7) (by decide), agree'.mpr ?_⟩, (quoted_compared "trunk-1").1⟩
  rintro ⟨n, -, undotted, -⟩
  exact absurd undotted (by decide)

/-- The last release has no release after it that can be numbered, and a readme that has been tested
with it breaks the check down. Of every other one the release that follows has a number and is the
greater one, and a readme that has been tested with it is up to date. Releases with at most ten minor
ones follow in the order of those before them. -/
theorem next_ascends_iff {version : String} {p : Nat × Nat}
    (read : pair? version.toList = some p) :
    ((following p).1 < numberBound ∧ (following p).2 < numberBound ↔ ¬IsLast p) ∧
      (next? p = some (following p) ↔ ¬IsLast p) ∧
      (next? p = none ↔ IsLast p) ∧
      (∀ n, next? p = some n → n = following p ∧ toLex p < toLex n) ∧
      (∀ q n m : Nat × Nat, q.1 < numberBound → p.2 ≤ 9 → q.2 ≤ 9 → toLex p < toLex q →
        next? p = some n → next? q = some m → toLex n < toLex m) ∧
      ∀ readme tested, readme.tested = some tested → pair? tested.toList = some p →
        (testedFindings readme (.ofLatest version) = .error .overflow ↔ IsLast p) ∧
          (testedFindings readme (.ofLatest version) = .ok [] ↔ ¬IsLast p) := by
  obtain ⟨major, minor⟩ := pair?_lt read
  have follows (n : Nat × Nat) := @next?_eq_some_iff p n major
  refine ⟨following_bounded_iff major, by simp [follows], next?_eq_none_iff major,
    fun n next => ?_, fun q n m major' minor' minor'' less next next' => ?_,
    fun readme tested given reads => ?_⟩
  · obtain ⟨-, rfl⟩ := (follows n).mp next
    exact ⟨rfl, lt_following p⟩
  · obtain ⟨-, rfl⟩ := (follows n).mp next
    obtain ⟨-, rfl⟩ := (next?_eq_some_iff major').mp next'
    exact following_lt minor' minor'' less
  · have classified := classifies_read given reads (.ofLatest version) p read
    by_cases last : IsLast p
    · rw [classified.unnumbered le_rfl last]
      exact ⟨iff_of_true rfl last, iff_of_false nofun (not_not.mpr last)⟩
    · rw [@testedFindings_current readme (.ofLatest version) _ _ given reads read last]
      exact ⟨iff_of_false nofun last, iff_of_true rfl last⟩

/-- The tenth minor release of a major number, and that of the last one. -/
theorem next_ascends_iff_ends :
    (next? (6, 9) = some (7, 0) ∧ toLex (6, 9) < toLex (7, 0)) ∧
      next? (4294967295, 9) = none ∧
      testedFindings (testedWith "4294967295.9") (.ofLatest "4294967295.9") =
        .error .overflow := by
  have read : pair? "6.9.2".toList = some (6, 9) := by decide
  have read' : pair? "4294967295.9".toList = some (4294967295, 9) := by decide +kernel
  have more : ¬IsLast (6, 9) := by
    rintro ⟨full, -⟩
    have bound : numberBound = 4294967296 := rfl
    omega
  have last : IsLast (4294967295, 9) := ⟨rfl, le_rfl⟩
  obtain ⟨-, follows, -, ascends, -, -⟩ := next_ascends_iff read
  obtain ⟨-, -, none, -, -, broken⟩ := next_ascends_iff read'
  have next : next? (6, 9) = some (7, 0) := follows.mpr more
  exact ⟨⟨next, (ascends _ next).2⟩, none.mpr last,
    (broken _ "4294967295.9" (by decide +kernel) read').1.mpr last⟩

end ReadmeCheck

end PluginAudit
