import PluginAudit.Proofs.TextLines
import PluginAudit.Text.Case

/-!
Capitals of all scripts. A text in capitals stays as it is when it is put in capitals, and whatever
comes into a text by that is a letter or a mark of one, but no white space.
-/

namespace PluginAudit.Text

namespace CaseRun

def image (run : CaseRun) (code : Nat) : Nat := (code + run.distance).toNat

/-- The codes to which those of a run are mapped. -/
def images (run : CaseRun) : CaseRun := ⟨run.image run.first, run.image run.last, run.step, 0⟩

/-- The run of one code. -/
def single (code : Nat) : CaseRun := ⟨code, code, 1, 0⟩

/-- Two runs have no code in common because of their ranges, because of their parities, or because
the first one is a single code. -/
def avoids (run other : CaseRun) : Bool :=
  Nat.blt run.last other.first || Nat.blt other.last run.first ||
    (Nat.beq run.step 2 && Nat.beq other.step 2 &&
      !Nat.beq (run.first % 2) (other.first % 2)) ||
    (Nat.beq run.first run.last && !other.covers run.first)

/-- All codes are valid and none is one of white space or of a mark that precedes the letters. -/
def Solid (run : CaseRun) : Prop :=
  0x41 ≤ run.first ∧ run.last ≤ 0x5A ∨ 0xA0 < run.first ∧ run.last < 0x1680 ∨
    0x1680 < run.first ∧ run.last < 0x2000 ∨ 0x205F < run.first ∧ run.last < 0x3000 ∨
    0x3000 < run.first ∧ run.last < 0xD800 ∨ 0xE000 ≤ run.first ∧ run.last < 0x110000

instance (run : CaseRun) : Decidable run.Solid := inferInstanceAs (Decidable (_ ∨ _))

theorem covers_iff {run : CaseRun} {code : Nat} : run.covers code = true ↔
    run.first ≤ code ∧ code ≤ run.last ∧ (code - run.first) % run.step = 0 := by
  simp [covers, and_assoc]

theorem covers_single (code : Nat) : (single code).covers code = true := by
  simp [single, covers]

theorem not_covers_of_avoids {run other : CaseRun} {code : Nat} (covered : run.covers code = true)
    (avoids : run.avoids other = true) : other.covers code = false := by
  obtain ⟨least, most, stride⟩ := covers_iff.mp covered
  rw [Bool.eq_false_iff, Ne, covers_iff]
  rintro ⟨least', most', stride'⟩
  simp only [CaseRun.avoids, Bool.or_eq_true, Bool.and_eq_true, Nat.blt_eq, Nat.beq_eq,
    Bool.not_eq_true', Bool.eq_false_iff, Ne] at avoids
  rcases avoids with ((below | above) | ⟨⟨two, two'⟩, parity⟩) | ⟨whole, uncovered⟩
  · omega
  · omega
  · rw [two] at stride
    rw [two'] at stride'
    omega
  · obtain rfl : code = run.first := by omega
    exact uncovered (covers_iff.mpr ⟨least', most', stride'⟩)

theorem covers_images {run : CaseRun} {code : Nat} (covered : run.covers code = true)
    (solid : run.images.Solid) : run.images.covers (run.image code) = true := by
  obtain ⟨least, most, stride⟩ := covers_iff.mp covered
  simp only [Solid, images, image] at solid
  refine covers_iff.mpr ⟨?_, ?_, ?_⟩ <;> simp only [images, image]
  · omega
  · omega
  · rw [← stride]
    congr 1
    omega

end CaseRun

/-- The characters that are put in capitals, those with a longer image included. -/
def changedRuns : List CaseRun := upperRuns ++ longUpper.map fun e => .single e.1

/-- What they are mapped to. -/
def capitalRuns : List CaseRun :=
  upperRuns.map CaseRun.images ++ longUpper.flatMap fun e => e.2.map .single

theorem capitalRuns_avoid :
    capitalRuns.all (fun run => changedRuns.all run.avoids) = true := by decide +kernel

theorem capitalRuns_solid : ∀ run ∈ capitalRuns, run.Solid := by decide +kernel

theorem upperChar_unchanged {c : Char} (other : 0x80 ≤ c.toNat)
    (unchanged : ∀ run ∈ changedRuns, run.covers c.toNat = false) : upperChar c = [c] := by
  have short : longUpper.find? (·.1 == c.toNat) = none := by
    refine List.find?_eq_none.mpr fun e member same => ?_
    have listed : CaseRun.single e.1 ∈ changedRuns :=
      List.mem_append_right _ (List.mem_map_of_mem member)
    have none := unchanged _ listed
    rw [← beq_iff_eq.mp same, CaseRun.covers_single] at none
    cases none
  have fixed : upperRuns.find? (·.covers c.toNat) = none :=
    List.find?_eq_none.mpr fun run member =>
      Bool.eq_false_iff.mp (unchanged run (List.mem_append_left _ member))
  rw [upperChar, if_neg (Nat.not_lt.mpr other), short]
  simp only [shiftBy, fixed]

/-- A character that stays when it is put in capitals, and is none of those before the letters. -/
structure IsCapital (d : Char) : Prop where
  fixed : upperChar d = [d]
  solid : isBlank d = false
  letter : 0x41 ≤ d.toNat

theorem toUpper_cases (c : Char) :
    c.toUpper = c ∧ ¬(97 ≤ c.toNat ∧ c.toNat ≤ 122) ∨
      97 ≤ c.toNat ∧ c.toNat ≤ 122 ∧ c.toUpper.toNat + 32 = c.toNat := by
  unfold Char.toUpper
  split
  · rename_i small
    have low : 97 ≤ c.toNat := small.1
    have high : c.toNat ≤ 122 := small.2
    refine .inr ⟨low, high, ?_⟩
    change (c.val + ('A'.val - 'a'.val)).toNat + 32 = c.toNat
    rw [UInt32.toNat_add, Char.toNat_val]
    have shift : ('A'.val - 'a'.val).toNat = 4294967264 := rfl
    omega
  · exact .inl ⟨rfl, by assumption⟩

theorem isCapital_ofNat {run : CaseRun} {code : Nat} (listed : run ∈ capitalRuns)
    (covered : run.covers code = true) : IsCapital (Char.ofNat code) := by
  obtain ⟨least, most, -⟩ := CaseRun.covers_iff.mp covered
  have solid := capitalRuns_solid run listed
  simp only [CaseRun.Solid] at solid
  have valid : code.isValidChar := by
    rw [Nat.isValidChar]
    omega
  have same : (Char.ofNat code).toNat = code := toNat_ofNat valid
  refine ⟨?_, ?_, by omega⟩
  · -- The runs are those of the other scripts; an ASCII letter is put in capitals by itself.
    by_cases ascii : code < 0x80
    · have stays : (Char.ofNat code).toUpper = Char.ofNat code := by
        rcases toUpper_cases (Char.ofNat code) with ⟨stays, -⟩ | small
        · exact stays
        · omega
      rw [upperChar, same, if_pos ascii, stays]
    · refine upperChar_unchanged (by omega) fun other among => ?_
      have all := List.all_eq_true.mp capitalRuns_avoid run listed
      rw [same]
      exact CaseRun.not_covers_of_avoids covered (List.all_eq_true.mp all other among)
  · simp only [isBlank, same, Bool.or_eq_false_iff, Bool.and_eq_false_iff,
      decide_eq_false_iff_not, beq_eq_false_iff_ne]
    omega

theorem upperChar_ascii {c : Char} (ascii : c.toNat < 0x80) : upperChar c = [c.toUpper] := by
  rw [upperChar, if_pos ascii]

/-- What a character becomes in capitals: a capital, or what it has been. -/
theorem mem_upperChar {c d : Char} (member : d ∈ upperChar c) :
    d = c ∧ upperChar c = [c] ∨ IsCapital d := by
  by_cases ascii : c.toNat < 0x80
  · rw [upperChar_ascii ascii, List.mem_singleton] at member
    subst member
    rcases toUpper_cases c with ⟨same, -⟩ | ⟨low, high, upper⟩
    · exact .inl ⟨same, by rw [upperChar_ascii ascii, same]⟩
    · refine .inr ⟨?_, ?_, by omega⟩
      · rcases toUpper_cases c.toUpper with ⟨stays, -⟩ | small
        · rw [upperChar_ascii (by omega), stays]
        · omega
      · simp only [isBlank, Bool.or_eq_false_iff, Bool.and_eq_false_iff, decide_eq_false_iff_not,
          beq_eq_false_iff_ne]
        omega
  · rw [upperChar, if_neg ascii] at member ⊢
    cases long : longUpper.find? (·.1 == c.toNat) with
    | some e =>
      simp only [long, List.mem_map] at member
      obtain ⟨code, among, rfl⟩ := member
      refine .inr (isCapital_ofNat (List.mem_append_right _ ?_) (CaseRun.covers_single code))
      exact List.mem_flatMap.mpr ⟨e, List.mem_of_find?_eq_some long, List.mem_map_of_mem among⟩
    | none =>
      simp only [long, List.mem_singleton, shiftBy] at member ⊢
      cases found : upperRuns.find? (·.covers c.toNat) with
      | none =>
        simp only [found] at member
        exact .inl ⟨member, rfl⟩
      | some run =>
        simp only [found] at member
        subst member
        have listed : run.images ∈ capitalRuns :=
          List.mem_append_left _ (List.mem_map_of_mem (List.mem_of_find?_eq_some found))
        have covered := List.find?_some (p := fun run : CaseRun => run.covers c.toNat) found
        exact .inr (isCapital_ofNat listed
          (CaseRun.covers_images covered (capitalRuns_solid _ listed)))

theorem upperChar_of_mem {c d : Char} (member : d ∈ upperChar c) : upperChar d = [d] := by
  rcases mem_upperChar member with ⟨rfl, fixed⟩ | capital
  · exact fixed
  · exact capital.fixed

theorem upper_eq_self {cs : List Char} (capitals : ∀ c ∈ cs, upperChar c = [c]) :
    upper cs = cs := by
  induction cs with
  | nil => rfl
  | cons c rest ih =>
    obtain ⟨first, later⟩ := List.forall_mem_cons.mp capitals
    have tail : rest.flatMap upperChar = rest := ih later
    rw [upper, List.flatMap_cons, first, tail, List.singleton_append]

end PluginAudit.Text
