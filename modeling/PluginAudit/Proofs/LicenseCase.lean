import PluginAudit.Check.Readme
import PluginAudit.Proofs.Capitals
import PluginAudit.Proofs.Spelling

/-!
The case of the letters of a licence. Whatever is read in a licence is read without regard to the
case of ASCII letters, so that two spellings have one token and lead to the same findings.
-/

namespace PluginAudit

namespace Text

variable {cs : List Char} {c : Char}

theorem isBlank_toLower (c : Char) : isBlank c.toLower = isBlank c := by
  rcases toLower_cases c with same | ⟨low, high, lower⟩
  · rw [same]
  · rw [Bool.eq_iff_iff]
    simp only [isBlank, Bool.or_eq_true, Bool.and_eq_true, decide_eq_true_eq, beq_iff_eq]
    omega

/-- A character that is no letter is not a case of another one. -/
theorem toLower_eq_iff {d : Char} (noLetter : d.isAlpha = false) : c.toLower = d ↔ c = d := by
  have apart : ¬(65 ≤ d.toNat ∧ d.toNat ≤ 90 ∨ 97 ≤ d.toNat ∧ d.toNat ≤ 122) :=
    mt (isAlpha_iff d).mpr (Bool.eq_false_iff.mp noLetter)
  rcases toLower_cases c with same | ⟨low, high, lower⟩
  · rw [same]
  · refine iff_of_false ?_ ?_ <;> rintro rfl <;> omega

theorem toLower_toLower (c : Char) : c.toLower.toLower = c.toLower := by
  rcases toLower_cases c with same | ⟨low, high, lower⟩
  · rw [same, same]
  · rcases toLower_cases c.toLower with same | ⟨low', high', -⟩
    · exact same
    · omega

theorem foldChar_toLower (c : Char) : foldChar c.toLower = foldChar c := by
  have long : c.toLower = 'ſ' ↔ c = 'ſ' := toLower_eq_iff (by decide)
  have kelvin : c.toLower = '\u212A' ↔ c = '\u212A' := toLower_eq_iff (by decide)
  simp only [foldChar, long, kelvin, toLower_toLower]

theorem toUpper_toLower (c : Char) : c.toLower.toUpper = c.toUpper := by
  rcases toLower_cases c with same | ⟨low, high, lower⟩
  · rw [same]
  · rw [← Char.toNat_inj]
    rcases toUpper_cases c with ⟨same, -⟩ | small
    · rw [same]
      rcases toUpper_cases c.toLower with ⟨-, capital⟩ | small <;> omega
    · omega

theorem upperChar_toLower (c : Char) : upperChar c.toLower = upperChar c := by
  rcases toLower_cases c with same | ⟨low, high, lower⟩
  · rw [same]
  · rw [upperChar, upperChar, if_pos (by omega), if_pos (by omega), toUpper_toLower]

theorem dropEndWhile_map (p : Char → Bool) (f : Char → Char) (cs : List Char) :
    dropEndWhile p (cs.map f) = (dropEndWhile (fun c => p (f c)) cs).map f := by
  induction cs with
  | nil => rfl
  | cons c rest ih =>
    rw [List.map_cons, dropEndWhile, dropEndWhile, ih]
    cases dropEndWhile (fun c => p (f c)) rest with
    | nil => by_cases dropped : p (f c) = true <;> simp [dropped]
    | cons d more => rfl

theorem trim_asciiLower (cs : List Char) : trim (asciiLower cs) = asciiLower (trim cs) := by
  have blank : isBlank ∘ Char.toLower = isBlank := funext isBlank_toLower
  simp only [trim, trimStart, trimEnd, asciiLower, List.dropWhile_map, dropEndWhile_map, blank,
    isBlank_toLower]

theorem afterFolded?_asciiLower (pattern cs : List Char) :
    afterFolded? pattern (asciiLower cs) = (afterFolded? pattern cs).map asciiLower := by
  induction pattern generalizing cs with
  | nil => rfl
  | cons p rest ih =>
    cases cs with
    | nil => rfl
    | cons c more =>
      rw [asciiLower, List.map_cons, afterFolded?, afterFolded?, foldChar_toLower]
      split
      · exact ih more
      · rfl

theorem containsFolded_asciiLower (pattern cs : List Char) :
    containsFolded pattern (asciiLower cs) = containsFolded pattern cs := by
  induction cs with
  | nil => rfl
  | cons c rest ih =>
    have here := afterFolded?_asciiLower pattern (c :: rest)
    rw [asciiLower, List.map_cons] at here ⊢
    rw [containsFolded, containsFolded, here, Option.isSome_map]
    exact congrArg _ ih

theorem foldedSize?_asciiLower (pattern cs : List Char) :
    foldedSize? pattern (asciiLower cs) = foldedSize? pattern cs := by
  rw [foldedSize?, foldedSize?, afterFolded?_asciiLower, Option.map_map]
  rfl

theorem foldedSize?_drop_asciiLower (pattern cs : List Char) (n : Nat) :
    foldedSize? pattern ((asciiLower cs).drop n) = foldedSize? pattern (cs.drop n) := by
  rw [asciiLower, ← List.map_drop, ← asciiLower, foldedSize?_asciiLower]

theorem length_takeWhile_asciiLower {p : Char → Bool} (blind : ∀ c, p c.toLower = p c)
    (cs : List Char) : ((asciiLower cs).takeWhile p).length = (cs.takeWhile p).length := by
  have same : p ∘ Char.toLower = p := funext blind
  rw [asciiLower, List.takeWhile_map, List.length_map, same]

/-- Occurrences that are found in any case are replaced in any case. -/
theorem replaceFrom_asciiLower {size? : List Char → Option Nat}
    (blind : ∀ cs, size? (asciiLower cs) = size? cs) (image : List Char) (skip : Nat)
    (cs : List Char) : replaceFrom size? (asciiLower image) skip (asciiLower cs) =
      asciiLower (replaceFrom size? image skip cs) := by
  induction cs generalizing skip with
  | nil => cases skip <;> rfl
  | cons c rest ih =>
    cases skip with
    | succ n => exact ih n
    | zero =>
      have here := blind (c :: rest)
      simp only [asciiLower, List.map_cons] at here ih ⊢
      rw [replaceFrom, replaceFrom, here]
      cases size? (c :: rest) with
      | none => simp only [ih, List.map_cons]
      | some n => simp only [ih, List.map_append]

theorem replaceAll_respelled {size? : List Char → Option Nat}
    (blind : ∀ cs, size? (asciiLower cs) = size? cs) (image : List Char) {cs ds : List Char}
    (same : asciiLower cs = asciiLower ds) :
    asciiLower (replaceAll size? image cs) = asciiLower (replaceAll size? image ds) := by
  rw [replaceAll, replaceAll, ← replaceFrom_asciiLower blind, ← replaceFrom_asciiLower blind, same]

theorem upper_asciiLower (cs : List Char) : upper (asciiLower cs) = upper cs := by
  simp only [upper, asciiLower, List.flatMap_map, upperChar_toLower]

end Text

namespace License

open Text

theorem isGap_toLower (c : Char) : isGap c.toLower = isGap c := by
  have hyphen : c.toLower = '-' ↔ c = '-' := toLower_eq_iff (by decide)
  rw [Bool.eq_iff_iff]
  simp only [isGap, isBlank_toLower, Bool.or_eq_true, beq_iff_eq, hyphen]

theorem isSeparator_toLower (c : Char) : isSeparator c.toLower = isSeparator c := by
  have plus : c.toLower = '+' ↔ c = '+' := toLower_eq_iff (by decide)
  have dot : c.toLower = '.' ↔ c = '.' := toLower_eq_iff (by decide)
  have hyphen : c.toLower = '-' ↔ c = '-' := toLower_eq_iff (by decide)
  rw [Bool.eq_iff_iff]
  simp only [isSeparator, isBlank_toLower, Bool.or_eq_true, beq_iff_eq, plus, dot, hyphen]

theorem fullNameSize?_asciiLower (cs : List Char) :
    fullNameSize? (asciiLower cs) = fullNameSize? cs := by
  rw [fullNameSize?, fullNameSize?, afterFolded?_asciiLower, Option.map_map]
  congr 1
  funext rest
  have blanks := length_takeWhile_asciiLower isBlank_toLower rest
  simp only [Function.comp_apply, blanks, foldedSize?_drop_asciiLower]

theorem orLaterSize?_asciiLower (cs : List Char) :
    orLaterSize? (asciiLower cs) = orLaterSize? cs := by
  rw [orLaterSize?, orLaterSize?, afterFolded?_asciiLower, Option.bind_map]
  congr 1
  funext rest
  have gaps := length_takeWhile_asciiLower isGap_toLower rest
  simp only [Function.comp_apply, gaps, foldedSize?_drop_asciiLower]

theorem dropOrLater_asciiLower (gap : List Char) (skip : Nat) (cs : List Char) :
    dropOrLater (asciiLower gap) skip (asciiLower cs) = asciiLower (dropOrLater gap skip cs) := by
  induction cs generalizing gap skip with
  | nil => cases skip <;> simp [dropOrLater, asciiLower]
  | cons c rest ih =>
    cases skip with
    | succ n => exact ih gap n
    | zero =>
      have here := orLaterSize?_asciiLower (c :: rest)
      simp only [asciiLower, List.map_cons] at here ih ⊢
      rw [dropOrLater, dropOrLater, isGap_toLower, here]
      by_cases more : isGap c = true
      · rw [if_pos more, if_pos more, ← List.map_cons, ih]
      · rw [if_neg more, if_neg more]
        cases orLaterSize? (c :: rest) with
        | some n => exact ih [] (n - 1)
        | none =>
          have tail := ih [] 0
          rw [List.map_nil] at tail
          simp only [tail, List.map_append, List.map_cons, List.map_reverse]

theorem dropOrLater_respelled {cs ds : List Char} (same : asciiLower cs = asciiLower ds) :
    asciiLower (dropOrLater [] 0 cs) = asciiLower (dropOrLater [] 0 ds) := by
  have lowered (cs : List Char) := dropOrLater_asciiLower [] 0 cs
  rw [← lowered, ← lowered, same]

theorem upper_filter_respelled {cs ds : List Char} (same : asciiLower cs = asciiLower ds) :
    upper (cs.filter (!isSeparator ·)) = upper (ds.filter (!isSeparator ·)) := by
  have lowered (cs : List Char) : (asciiLower cs).filter (!isSeparator ·) =
      asciiLower (cs.filter (!isSeparator ·)) := by
    simp only [asciiLower, List.filter_map, Function.comp_def, isSeparator_toLower]
  rw [← upper_asciiLower, ← lowered, same, lowered, upper_asciiLower]

theorem tokenOf_respelled {a b : List Char} (same : asciiLower a = asciiLower b) :
    tokenOf a = tokenOf b := by
  have trimmed : asciiLower (trim a) = asciiLower (trim b) := by
    rw [← trim_asciiLower, same, trim_asciiLower]
  have named := replaceAll_respelled fullNameSize?_asciiLower "GPL".toList trimmed
  have unlatered := dropOrLater_respelled named
  have unlimited := replaceAll_respelled (foldedSize?_asciiLower "-only".toList) [] unlatered
  have bare := replaceAll_respelled (foldedSize?_asciiLower "version".toList) [] unlimited
  exact congrArg (fun t => dropMinorZero (dropVersionMark t)) (upper_filter_respelled bare)

theorem isIdentifierChar_toLower (c : Char) : isIdentifierChar c.toLower = isIdentifierChar c := by
  simp only [isIdentifierChar, foldChar_toLower]

theorem Place.step_toLower (place : Place) (c : Char) : place.step c.toLower = place.step c := by
  cases place <;>
    simp only [Place.step, isIdentifierChar_toLower, isBlank_toLower, foldChar_toLower]

theorem isIdentifier_respelled {a b : String} (same : a.sameIgnoringCase b) :
    isIdentifier a = isIdentifier b := by
  have lowered (text : List Char) : (trim (asciiLower text)).foldl Place.step .fresh =
      (trim text).foldl Place.step .fresh := by
    rw [trim_asciiLower, asciiLower]
    simp only [List.foldl_map, Place.step_toLower]
  rw [isIdentifier, isIdentifier, ← lowered, sameIgnoringCase_iff.mp same, lowered]

theorem isCompatible_respelled {a b : String} (same : a.sameIgnoringCase b) :
    isCompatible a = isCompatible b := by
  have lowered (name : String) (text : List Char) :
      containsFolded name.toList text = containsFolded name.toList (asciiLower text) :=
    (containsFolded_asciiLower _ text).symm
  simp only [isCompatible, lowered _ a.toList, sameIgnoringCase_iff.mp same, ← lowered]

theorem token_respelled {a b : String} (same : a.sameIgnoringCase b) : token a = token b := by
  rw [token, token, tokenOf_respelled (sameIgnoringCase_iff.mp same)]

end License

namespace ReadmeCheck

open License

/-- Both licences are missing, or they differ only in the case of ASCII letters. -/
def SameLicense : (a b : Option String) → Prop := Option.Rel fun a b => a.sameIgnoringCase b = true

theorem acceptsLicense_respelled {a b : String} (same : a.sameIgnoringCase b) :
    acceptsLicense a = acceptsLicense b := by
  rw [acceptsLicense, acceptsLicense, isIdentifier_respelled same, isCompatible_respelled same,
    token_respelled same]

theorem licenseFindings_respelled {readme readme' : Readme} {headers headers' : HeaderBlock}
    (told : SameLicense readme.license? readme'.license?)
    (declared : SameLicense headers.license? headers'.license?) :
    (licenseFindings readme headers).map (·.code) =
      (licenseFindings readme' headers').map (·.code) := by
  unfold licenseFindings
  revert told declared
  rcases readme.license? with _ | a <;> rcases readme'.license? with _ | b
  · intros; rfl
  · rintro ⟨⟩
  · rintro ⟨⟩
  · rintro ⟨same⟩
    rcases headers.license? with _ | c <;> rcases headers'.license? with _ | d
    · intros
      simp only [acceptsLicense_respelled same]
      split <;> rfl
    · rintro ⟨⟩
    · rintro ⟨⟩
    · rintro ⟨same'⟩
      simp only [acceptsLicense_respelled same, token_respelled same, token_respelled same']
      split <;> split <;> rfl

/-- Licences that differ only in the case of ASCII letters have one token and are valid and
compatible together, and what is found in a readme and a header is of the same kind with either. -/
theorem license_case_blind :
    (∀ a b : String, a.sameIgnoringCase b → token a = token b ∧
        isIdentifier a = isIdentifier b ∧ isCompatible a = isCompatible b ∧
          isCompatible (token a) = isCompatible (token b)) ∧
      ∀ (readme readme' : Readme) (headers headers' : HeaderBlock),
        SameLicense readme.license? readme'.license? →
          SameLicense headers.license? headers'.license? →
            (licenseFindings readme headers).map (·.code) =
              (licenseFindings readme' headers').map (·.code) := by
  refine ⟨fun a b same => ?_, fun _ _ _ _ => licenseFindings_respelled⟩
  have tokens := token_respelled same
  exact ⟨tokens, isIdentifier_respelled same, isCompatible_respelled same, by rw [tokens]⟩

/-- A readme that gives nothing but its licence. -/
def licensedAs (license : String) : Readme :=
  .ofChars ("=== Demo ===\nLicense: " ++ license ++ "\n").toList "6.7" "7.4"

def declaredAs (license : String) : HeaderBlock := .ofSource ("License: " ++ license)

theorem license_case_blind_mixed :
    token "gpl-2.0-OR-Later" = token "GPL-2.0-or-later" ∧
      isIdentifier "gpl-2.0-OR-Later" = isIdentifier "GPL-2.0-or-later" ∧
      (licenseFindings (licensedAs "gpl-2.0-OR-Later") (declaredAs "mit")).map (·.code) =
        (licenseFindings (licensedAs "GPL-2.0-or-later") (declaredAs "MIT")).map (·.code) ∧
      (licenseFindings (licensedAs "GPL-2.0-or-later") (declaredAs "MIT")).map (·.code) =
        ["license_mismatch"] := by
  obtain ⟨licences, findings⟩ := license_case_blind
  obtain ⟨tokens, identifiers, -⟩ := licences "gpl-2.0-OR-Later" "GPL-2.0-or-later" (by decide)
  have told : (licensedAs "gpl-2.0-OR-Later").license? = some "gpl-2.0-OR-Later" ∧
      (licensedAs "GPL-2.0-or-later").license? = some "GPL-2.0-or-later" := by decide +kernel
  have declared : (declaredAs "mit").license? = some "mit" ∧
      (declaredAs "MIT").license? = some "MIT" := by decide +kernel
  refine ⟨tokens, identifiers, findings _ _ _ _ ?_ ?_, by decide +kernel⟩
  · rw [told.1, told.2]
    exact .some (by decide)
  · rw [declared.1, declared.2]
    exact .some (by decide)

end ReadmeCheck

end PluginAudit
