import PluginAudit.Text.Ascii
import PluginAudit.Text.Fold

/-!
Texts found in any case. Such a find is a beginning whose folded letters are the pattern; of letters
that no character beyond ASCII is a case of, it is a beginning in some case of the ASCII letters.
-/

namespace PluginAudit.Text

variable {pattern text rest head : List Char} {c p x : Char}

theorem afterFolded?_eq_some_iff : afterFolded? pattern text = some rest ↔
    ∃ head, text = head ++ rest ∧ head.map foldChar = pattern := by
  induction pattern generalizing text with
  | nil => simp [afterFolded?]
  | cons p ps ih =>
    cases text with
    | nil =>
      refine iff_of_false nofun ?_
      rintro ⟨head, split, folded⟩
      rw [(List.append_eq_nil_iff.mp split.symm).1] at folded
      cases folded
    | cons c cs =>
      rw [afterFolded?]
      split
      · rename_i same
        rw [ih]
        constructor
        · rintro ⟨head, rfl, folded⟩
          exact ⟨c :: head, rfl, by rw [List.map_cons, folded, same]⟩
        · rintro ⟨head, split, folded⟩
          cases head with
          | nil => cases folded
          | cons d head =>
            obtain ⟨rfl, rfl⟩ := List.cons.inj split
            exact ⟨head, rfl, (List.cons.inj folded).2⟩
      · rename_i other
        refine iff_of_false nofun ?_
        rintro ⟨head, split, folded⟩
        cases head with
        | nil => cases folded
        | cons d head =>
          obtain ⟨rfl, rfl⟩ := List.cons.inj split
          exact other (List.cons.inj folded).1.symm

theorem afterFolded?_append (first second text : List Char) :
    afterFolded? (first ++ second) text =
      (afterFolded? first text).bind (afterFolded? second) := by
  induction first generalizing text with
  | nil => rfl
  | cons p ps ih =>
    cases text with
    | nil => rfl
    | cons c cs =>
      rw [List.cons_append, afterFolded?, afterFolded?]
      split
      · exact ih cs
      · rfl

/-- A character that is in no case one of the pattern ends what can be found of it. -/
theorem afterFolded?_append_cons (foreign : foldChar x ∉ pattern) (more : List Char) :
    afterFolded? pattern (text ++ x :: more) =
      (afterFolded? pattern text).map (· ++ x :: more) := by
  induction pattern generalizing text with
  | nil => rfl
  | cons p ps ih =>
    obtain ⟨first, later⟩ := List.ne_and_not_mem_of_not_mem_cons foreign
    cases text with
    | nil => simp [afterFolded?, first.symm]
    | cons c cs =>
      rw [List.cons_append, afterFolded?, afterFolded?]
      split
      · exact ih later
      · rfl

/-- A small letter that no character beyond ASCII is a case of. -/
def IsPlain (p : Char) : Prop := p.toNat < 0x80 ∧ p ≠ 's' ∧ p ≠ 'k' ∧ p.toLower = p

instance : DecidablePred IsPlain := fun _ => inferInstanceAs (Decidable (_ ∧ _ ∧ _ ∧ _))

theorem IsPlain.fold_iff (plain : IsPlain p) : foldChar c = p ↔ p.toLower = c.toLower := by
  obtain ⟨ascii, notS, notK, small⟩ := plain
  have beyond (d : Char) (high : 0x80 ≤ d.toNat) : p ≠ d := by
    rintro rfl
    omega
  rw [small, eq_comm, foldChar]
  split
  · rename_i long
    subst long
    exact iff_of_false notS (beyond _ (by decide))
  · split
    · rename_i sign
      subst sign
      exact iff_of_false notK (beyond _ (by decide))
    · rfl

theorem map_foldChar_iff (plain : ∀ p ∈ pattern, IsPlain p) :
    head.map foldChar = pattern ↔ sameIgnoringCase pattern head = true := by
  rw [sameIgnoringCase, beq_iff_eq, asciiLower, asciiLower]
  induction pattern generalizing head with
  | nil => cases head <;> simp
  | cons p ps ih =>
    obtain ⟨first, later⟩ := List.forall_mem_cons.mp plain
    cases head with
    | nil => simp
    | cons c cs => simp only [List.map_cons, List.cons.injEq, first.fold_iff, ih later]

theorem afterFolded?_plain_iff (plain : ∀ p ∈ pattern, IsPlain p) :
    afterFolded? pattern text = some rest ↔
      ∃ head, text = head ++ rest ∧ sameIgnoringCase pattern head = true := by
  simp only [afterFolded?_eq_some_iff, map_foldChar_iff plain]

end PluginAudit.Text
