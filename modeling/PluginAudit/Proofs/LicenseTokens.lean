import PluginAudit.Proofs.FoldedText
import PluginAudit.Proofs.LicenseCase
import PluginAudit.Proofs.ReadmeAgreement

/-!
Tokens of licences read as licences. A token has no white space and no small letters, so that only a
few of the steps that lead to a token can still concern it: a token is its own token unless letters
that have come together in it are to be left out again.
-/

namespace PluginAudit

namespace Text

variable {pattern text rest : List Char} {c : Char}

theorem eq_of_foldChar {d : Char} (noLetter : d.isAlpha = false) (folded : foldChar c = d) :
    c = d := by
  unfold foldChar at folded
  split at folded
  · subst folded
    cases noLetter
  · split at folded
    · subst folded
      cases noLetter
    · exact (toLower_eq_iff noLetter).mp folded

/-- A pattern with a mark in it does not occur where the mark does not. -/
theorem afterFolded?_foreign {mark : Char} (noLetter : mark.isAlpha = false)
    (needed : mark ∈ pattern) (foreign : mark ∉ text) : afterFolded? pattern text = none := by
  cases found : afterFolded? pattern text with
  | none => rfl
  | some rest =>
    obtain ⟨head, rfl, folded⟩ := afterFolded?_eq_some_iff.mp found
    rw [← folded] at needed
    obtain ⟨c, member, same⟩ := List.mem_map.mp needed
    have marked := eq_of_foldChar noLetter same
    exact absurd (List.mem_append_left rest (marked ▸ member)) foreign

theorem replaceAll_eq_self {size? : List Char → Option Nat} (image : List Char)
    (none : ∀ rest, rest <:+ text → size? rest = none) : replaceAll size? image text = text := by
  induction text with
  | nil => rfl
  | cons c rest ih =>
    have later : replaceFrom size? image 0 rest = rest :=
      ih fun more ends => none more (ends.trans (List.suffix_cons c rest))
    rw [replaceAll, replaceFrom, none _ (List.suffix_refl _)]
    exact congrArg (c :: ·) later

theorem replaceFrom_sublist (size? : List Char → Option Nat) (skip : Nat) (text : List Char) :
    (replaceFrom size? [] skip text).Sublist text := by
  induction text generalizing skip with
  | nil => cases skip <;> exact List.Sublist.refl _
  | cons c rest ih =>
    cases skip with
    | succ n => exact (ih n).cons c
    | zero =>
      rw [replaceFrom]
      split
      · rename_i n _
        exact (ih (n - 1)).cons c
      · exact (ih 0).cons_cons c

theorem replaceAll_sublist (size? : List Char → Option Nat) (text : List Char) :
    (replaceAll size? [] text).Sublist text := replaceFrom_sublist size? 0 text

/-- A text from which a pattern is left out stays as it is only without the pattern. -/
theorem replaceAll_eq_self_iff (some : pattern ≠ []) (text : List Char) :
    replaceAll (foldedSize? pattern) [] text = text ↔ containsFolded pattern text = false := by
  induction text with
  | nil => simpa [replaceAll, replaceFrom, containsFolded] using some
  | cons c rest ih =>
    rw [replaceAll] at ih ⊢
    rw [replaceFrom, containsFolded, Bool.or_eq_false_iff, foldedSize?]
    cases found : afterFolded? pattern (c :: rest) with
    | none => simpa using ih
    | some more =>
      refine iff_of_false (fun same => ?_) (by simp)
      have part := replaceFrom_sublist (foldedSize? pattern) (pattern.length - 1) rest
      have shorter := part.length_le
      have whole := congrArg List.length same
      simp only [Option.map_some, List.nil_append, List.length_cons] at whole
      omega

theorem toLower_capital {c : Char} (low : 65 ≤ c.toNat) (high : c.toNat ≤ 90) :
    c.toLower.toNat = c.toNat + 32 := by
  have capitals : ∀ n < 91, 65 ≤ n → (Char.ofNat n).toLower.toNat = n + 32 := by decide
  have lower := capitals c.toNat (by omega) low
  rwa [Char.ofNat_toNat] at lower

/-- Among capitals only its own capital is a case of a letter. -/
theorem foldChar_capital {p : Char} (fixed : upperChar c = [c])
    (letter : 97 ≤ p.toNat ∧ p.toNat ≤ 122) (noKelvin : p ≠ 'k') :
    p = foldChar c ↔ p.toUpper = c := by
  obtain ⟨least, most⟩ := letter
  have upper : p.toUpper.toNat + 32 = p.toNat := by
    rcases toUpper_cases p with ⟨-, other⟩ | small <;> omega
  unfold foldChar
  split
  · rename_i long
    subst long
    exact absurd fixed (by decide +kernel)
  · split
    · rename_i kelvin
      refine iff_of_false noKelvin fun same => ?_
      rw [same, kelvin] at upper
      have code : '\u212A'.toNat = 0x212A := rfl
      omega
    · have stays : ¬(97 ≤ c.toNat ∧ c.toNat ≤ 122) := by
        rintro ⟨low, high⟩
        rw [upperChar_ascii (by omega)] at fixed
        have same : c.toUpper = c := (List.cons.inj fixed).1
        rcases toUpper_cases c with ⟨-, other⟩ | ⟨-, -, lower⟩
        · exact other ⟨low, high⟩
        · rw [same] at lower
          omega
      rw [← Char.toNat_inj, ← Char.toNat_inj]
      by_cases capital : 65 ≤ c.toNat ∧ c.toNat ≤ 90
      · have lower := toLower_capital capital.1 capital.2
        omega
      · rcases toLower_cases c with same | ⟨low, high, -⟩
        · rw [same]
          omega
        · exact absurd ⟨low, high⟩ capital

theorem afterFolded?_capitals (letters : ∀ p ∈ pattern, (97 ≤ p.toNat ∧ p.toNat ≤ 122) ∧ p ≠ 'k')
    (capitals : ∀ c ∈ text, upperChar c = [c]) :
    afterFolded? pattern text = after? (asciiUpper pattern) text := by
  induction pattern generalizing text with
  | nil => rfl
  | cons p ps ih =>
    cases text with
    | nil => rfl
    | cons c cs =>
      obtain ⟨⟨letter, noKelvin⟩, letters⟩ := List.forall_mem_cons.mp letters
      obtain ⟨fixed, capitals⟩ := List.forall_mem_cons.mp capitals
      have same := foldChar_capital fixed letter noKelvin
      rw [asciiUpper, List.map_cons, afterFolded?, after?]
      simp only [same]
      split
      · exact ih letters capitals
      · rfl

theorem containsFolded_capitals
    (letters : ∀ p ∈ pattern, (97 ≤ p.toNat ∧ p.toNat ≤ 122) ∧ p ≠ 'k')
    (capitals : ∀ c ∈ text, upperChar c = [c]) :
    containsFolded pattern text = contains (asciiUpper pattern) text := by
  induction text with
  | nil =>
    rw [containsFolded, contains, asciiUpper]
    cases pattern <;> rfl
  | cons c rest ih =>
    rw [containsFolded, contains, afterFolded?_capitals letters capitals,
      ih (List.forall_mem_cons.mp capitals).2]
    rfl

end Text

namespace License

open Text

/-- What a token is written with. -/
structure IsToken (text : List Char) : Prop where
  capitals : ∀ c ∈ text, upperChar c = [c]
  solid : ∀ c ∈ text, isSeparator c = false

theorem IsToken.sublist {token part : List Char} (written : IsToken token)
    (inside : part.Sublist token) : IsToken part :=
  ⟨fun c member => written.capitals c (inside.subset member),
    fun c member => written.solid c (inside.subset member)⟩

theorem IsToken.noBlank {token : List Char} (written : IsToken token) :
    ∀ c ∈ token, isBlank c = false := by
  intro c member
  have solid := written.solid c member
  simp only [isSeparator, Bool.or_eq_false_iff] at solid
  exact solid.1.1.1

theorem IsToken.noGap {token : List Char} (written : IsToken token) :
    ∀ c ∈ token, isGap c = false := by
  intro c member
  have solid := written.solid c member
  simp only [isSeparator, isGap, Bool.or_eq_false_iff] at solid ⊢
  exact ⟨solid.1.1.1, solid.2⟩

theorem dropVersionMark_sublist (text : List Char) : (dropVersionMark text).Sublist text := by
  unfold dropVersionMark
  split
  · exact ((List.sublist_cons_self _ _).cons_cons _).cons_cons _ |>.cons_cons _
  · exact List.Sublist.refl _

theorem dropMinorZero_sublist (text : List Char) : (dropMinorZero text).Sublist text := by
  unfold dropMinorZero
  split
  · decide
  · decide
  · exact List.Sublist.refl _

theorem dropMinorZero_dropMinorZero (text : List Char) :
    dropMinorZero (dropMinorZero text) = dropMinorZero text := by
  fun_cases dropMinorZero text with
  | case1 => rfl
  | case2 => rfl
  | case3 => simp only [dropMinorZero]

theorem dropVersionMark_eq_self_iff (text : List Char) :
    dropVersionMark text = text ↔ startsWith "GPLV".toList text = false := by
  rw [Bool.eq_false_iff, Ne, startsWith_iff]
  unfold dropVersionMark
  split
  · rename_i rest
    refine iff_of_false (fun same => ?_) fun free => free ⟨rest, rfl⟩
    have whole := congrArg List.length same
    simp at whole
  · rename_i other
    refine iff_of_true rfl ?_
    rintro ⟨rest, rfl⟩
    exact other rest rfl

theorem isToken_upper {text : List Char} (solid : ∀ c ∈ text, isSeparator c = false) :
    IsToken (upper text) := by
  refine ⟨fun d member => ?_, fun d member => ?_⟩ <;>
    obtain ⟨c, among, image⟩ := List.mem_flatMap.mp member
  · exact upperChar_of_mem image
  · rcases mem_upperChar image with ⟨rfl, -⟩ | ⟨-, noBlank, letter⟩
    · exact solid d among
    · have apart {e : Char} (low : e.toNat < 0x41) : d ≠ e := by
        rintro rfl
        omega
      simp [isSeparator, noBlank, apart (by decide : '+'.toNat < 0x41),
        apart (by decide : '.'.toNat < 0x41), apart (by decide : '-'.toNat < 0x41)]

theorem isToken_tokenOf (license : List Char) : IsToken (tokenOf license) := by
  refine (isToken_upper fun c member => ?_).sublist
    ((dropMinorZero_sublist _).trans (dropVersionMark_sublist _))
  simpa using List.of_mem_filter member

/-- With no gap to be left out, `or later` is left out as one word. -/
theorem dropOrLater_closed {text : List Char} (closed : ∀ c ∈ text, isGap c = false) (skip : Nat) :
    dropOrLater [] skip text = replaceFrom (foldedSize? "orlater".toList) [] skip text := by
  have orLater {text : List Char} (closed : ∀ c ∈ text, isGap c = false) :
      orLaterSize? text = foldedSize? "orlater".toList text := by
    have word : "orlater".toList = "or".toList ++ "later".toList := by decide
    rw [orLaterSize?, foldedSize?, word, afterFolded?_append]
    cases found : afterFolded? "or".toList text with
    | none => rfl
    | some rest =>
      obtain ⟨head, rfl, -⟩ := afterFolded?_eq_some_iff.mp found
      have gap : rest.takeWhile isGap = [] := by
        cases rest with
        | nil => rfl
        | cons c more =>
          have solid := closed c (List.mem_append_right _ List.mem_cons_self)
          exact List.takeWhile_cons_of_neg (Bool.eq_false_iff.mp solid)
      simp only [Option.bind_some, gap, List.length_nil, List.drop_zero, foldedSize?,
        Option.map_map]
      rfl
  induction text generalizing skip with
  | nil => cases skip <;> rfl
  | cons c rest ih =>
    have later := fun d member => closed d (List.mem_cons_of_mem c member)
    cases skip with
    | succ n => exact ih later n
    | zero =>
      rw [dropOrLater, replaceFrom, orLater closed,
        if_neg (Bool.eq_false_iff.mp (closed c List.mem_cons_self)), ih later 0]
      cases foldedSize? "orlater".toList (c :: rest) with
      | none => rfl
      | some n => exact ih later (n - 1)

/-- A token is read without its words and marks only. -/
theorem tokenOf_token {text : List Char} (token : IsToken text) : tokenOf text =
    dropMinorZero (dropVersionMark (replaceAll (foldedSize? "version".toList) []
      (replaceAll (foldedSize? "orlater".toList) [] text))) := by
  have noBlank : ' ' ∉ text := fun member => absurd (token.noBlank _ member) (by decide)
  have unnamed : replaceAll fullNameSize? "GPL".toList text = text := by
    refine replaceAll_eq_self _ fun rest ends => ?_
    rw [fullNameSize?, afterFolded?_foreign (by decide : ' '.isAlpha = false) (by decide)
      fun member => noBlank (ends.subset member)]
    rfl
  have unlatered : dropOrLater [] 0 text = replaceAll (foldedSize? "orlater".toList) [] text :=
    dropOrLater_closed token.noGap 0
  have token' := token.sublist (replaceAll_sublist (foldedSize? "orlater".toList) text)
  have unlimited : replaceAll (foldedSize? "-only".toList) []
      (replaceAll (foldedSize? "orlater".toList) [] text) =
        replaceAll (foldedSize? "orlater".toList) [] text := by
    refine replaceAll_eq_self _ fun rest ends => ?_
    rw [foldedSize?, afterFolded?_foreign (by decide : '-'.isAlpha = false) (by decide)
      fun member => absurd (token'.solid _ (ends.subset member)) (by decide)]
    rfl
  have token'' := token'.sublist (replaceAll_sublist (foldedSize? "version".toList) _)
  have whole := List.filter_eq_self (p := (!isSeparator ·)).mpr fun c member => by
    rw [token''.solid c member]
    rfl
  rw [tokenOf]
  simp only [trim_solid token.noBlank, unnamed, unlatered, unlimited, whole,
    upper_eq_self token''.capitals]

/-- Nothing in a token is to be left out again. -/
def Settled (token : List Char) : Prop :=
  contains "ORLATER".toList token = false ∧ contains "VERSION".toList token = false ∧
    startsWith "GPLV".toList token = false

instance (token : List Char) : Decidable (Settled token) :=
  inferInstanceAs (Decidable (_ ∧ _ ∧ _))

theorem settled_iff {text : List Char} (token : IsToken text) : Settled text ↔
    replaceAll (foldedSize? "orlater".toList) [] text = text ∧
      replaceAll (foldedSize? "version".toList) [] text = text ∧ dropVersionMark text = text := by
  have later : asciiUpper "orlater".toList = "ORLATER".toList := by decide
  have version : asciiUpper "version".toList = "VERSION".toList := by decide
  have letters : ∀ p ∈ "orlater".toList ++ "version".toList,
      (97 ≤ p.toNat ∧ p.toNat ≤ 122) ∧ p ≠ 'k' := by simp
  obtain ⟨first, second⟩ := List.forall_mem_append.mp letters
  rw [replaceAll_eq_self_iff (by decide), replaceAll_eq_self_iff (by decide),
    dropVersionMark_eq_self_iff, containsFolded_capitals first token.capitals,
    containsFolded_capitals second token.capitals, later, version, Settled]

theorem tokenOf_token_sublist {text : List Char} (token : IsToken text) :
    (tokenOf text).Sublist text := by
  rw [tokenOf_token token]
  exact (dropMinorZero_sublist _).trans ((dropVersionMark_sublist _).trans
    ((replaceAll_sublist _ _).trans (replaceAll_sublist _ _)))

/-- A token is its own token exactly if none of the remaining steps leaves anything out: each of
them leaves a part of what it is given. -/
theorem tokenOf_token_iff {text : List Char} (token : IsToken text)
    (whole : dropMinorZero text = text) : tokenOf text = text ↔ Settled text := by
  rw [settled_iff token, tokenOf_token token]
  constructor
  · intro same
    have first := replaceAll_sublist (foldedSize? "orlater".toList) text
    have second := replaceAll_sublist (foldedSize? "version".toList)
      (replaceAll (foldedSize? "orlater".toList) [] text)
    have third := dropVersionMark_sublist (replaceAll (foldedSize? "version".toList) []
      (replaceAll (foldedSize? "orlater".toList) [] text))
    have last := dropMinorZero_sublist (dropVersionMark (replaceAll
      (foldedSize? "version".toList) [] (replaceAll (foldedSize? "orlater".toList) [] text)))
    -- The smallest of the parts is the whole, so that all of them are.
    rw [same] at last
    have unlatered := first.antisymm (last.trans (third.trans second))
    rw [unlatered] at second third last
    have unversioned := second.antisymm (last.trans third)
    rw [unversioned] at third last
    exact ⟨unlatered, unversioned, third.antisymm last⟩
  · rintro ⟨unlatered, unversioned, unmarked⟩
    rw [unlatered, unversioned, unmarked, whole]

theorem toList_token (license : String) : (token license).toList = tokenOf license.toList :=
  String.toList_ofList

theorem token_token_sublist (license : String) :
    (token (token license)).toList.Sublist (token license).toList := by
  rw [toList_token (token license)]
  refine tokenOf_token_sublist ?_
  rw [toList_token]
  exact isToken_tokenOf _

theorem token_token_iff (license : String) :
    token (token license) = token license ↔ Settled (token license).toList := by
  rw [token, token, String.toList_ofList, String.ofList_inj]
  exact tokenOf_token_iff (isToken_tokenOf _) (dropMinorZero_dropMinorZero _)

end License

namespace ReadmeCheck

open License

theorem mismatch_iff {readme : Readme} {headers : HeaderBlock} {told declared : String}
    (stated : readme.license? = some told) (given : headers.license? = some declared) :
    "license_mismatch" ∈ (licenseFindings readme headers).map (·.code) ↔
      token declared ≠ token told := by
  rw [licenseFindings_code given stated, licenseCodes]
  by_cases accepted : acceptsLicense told = true <;>
    by_cases same : token declared = token told <;> simp [accepted, same]

/-- The token of a licence is its own token, and taken for the same licence, exactly if it contains
none of the words that are left out and begins with no mark of a version; else its own token is a
shorter one. -/
theorem token_settles (license : String) :
    (token (token license) = token license ↔ Settled (token license).toList) ∧
      (¬Settled (token license).toList →
        (token (token license)).length < (token license).length) ∧
      ∀ (readme : Readme) (headers : HeaderBlock),
        (readme.license? = some license ∧ headers.license? = some (token license) ∨
          readme.license? = some (token license) ∧ headers.license? = some license) →
        ("license_mismatch" ∈ (licenseFindings readme headers).map (·.code) ↔
          ¬Settled (token license).toList) := by
  have exact := token_token_iff license
  refine ⟨exact, fun unsettled => ?_, ?_⟩
  · have part := token_token_sublist license
    have longer : (token (token license)).toList.length ≠ (token license).toList.length :=
      fun same => unsettled (exact.mp (String.toList_inj.mp (part.eq_of_length same)))
    rw [← String.length_toList, ← String.length_toList]
    exact Nat.lt_of_le_of_ne part.length_le longer
  · rintro readme headers (⟨stated, given⟩ | ⟨stated, given⟩)
    · rw [mismatch_iff stated given, Ne, exact]
    · rw [mismatch_iff stated given, Ne, eq_comm, exact]

/-- A token that is settled, and one with two marks of a version of which one is left out at a
time; here the token is in the readme. -/
theorem token_settles_marks :
    (token (token "GPL-2.0-or-later") = token "GPL-2.0-or-later" ∧
        "license_mismatch" ∉ (licenseFindings (licensedAs "GPL-2.0-or-later")
          (declaredAs (token "GPL-2.0-or-later"))).map (·.code)) ∧
      (token (token "GPL-VV2")).length < (token "GPL-VV2").length ∧
      "license_mismatch" ∈ (licenseFindings (licensedAs (token "GPL-VV2"))
        (declaredAs "GPL-VV2")).map (·.code) := by
  obtain ⟨exact, -, found⟩ := token_settles "GPL-2.0-or-later"
  obtain ⟨-, shorter, found'⟩ := token_settles "GPL-VV2"
  have settled : Settled (token "GPL-2.0-or-later").toList := by decide +kernel
  have unsettled : ¬Settled (token "GPL-VV2").toList := by decide +kernel
  refine ⟨⟨exact.mpr settled, fun mismatch => ?_⟩, shorter unsettled, ?_⟩
  · exact (found _ _ (.inl (by decide +kernel))).mp mismatch settled
  · exact (found' _ _ (.inr (by decide +kernel))).mpr unsettled

/-- Words are left out before the separators are, so that a word may be put together in a token and
be left out of the token of the token. The licence is then not taken for the same as its token. -/
theorem token_differs_from_own :
    token "GPL-2.0-o-r-later" = "GPL20ORLATER" ∧
      token (token "GPL-2.0-o-r-later") ≠ token "GPL-2.0-o-r-later" ∧
      (licenseFindings (licensedAs "GPL-2.0-o-r-later")
        (declaredAs (token "GPL-2.0-o-r-later"))).map (·.code) = ["license_mismatch"] := by
  decide +kernel

end ReadmeCheck

end PluginAudit
