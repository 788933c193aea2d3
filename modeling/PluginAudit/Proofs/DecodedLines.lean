import Mathlib.Algebra.Group.Nat.Defs
import PluginAudit.Proofs.TextLines
import PluginAudit.Proofs.Utf8

/-!
Decoding and lines. A line feed is never part of another character, so bytes are decoded line by
line whatever stands in them.
-/

namespace PluginAudit.Text

namespace Decoder

/-- In the middle of a character: the next byte is no ASCII, and whatever the bytes still owed, the
character comes to 0x80 at least. An overlong line feed is therefore none. -/
def Waits : Decoder → Prop
  | .start => True
  | .owing code owed low _ =>
    0x80 ≤ low.toNat ∧ 0x80 ≤ code * 64 ^ owed + (low.toNat - 0x80) * 64 ^ (owed - 1)

variable {state : Decoder} {b : UInt8}

theorem ofNat_ne_feed {n : Nat} (other : n ≠ 0x0A) : Char.ofNat n ≠ '\n' := by
  intro same
  by_cases valid : n.isValidChar
  · rw [← toNat_ofNat valid, same] at other
    exact other rfl
  · have null : Char.ofNat n = '\x00' := dif_neg valid
    exact absurd (null.symm.trans same) (by decide)

/-- A first byte that is no line feed gives no line feed. -/
theorem first_waits (b : UInt8) :
    (first b).2.Waits ∧ (b ≠ 0x0A → some '\n' ∉ (first b).1) := by
  unfold first
  dsimp only
  split
  · refine ⟨trivial, fun other member => ?_⟩
    have number : b.toNat ≠ 0x0A := fun same => other (UInt8.toNat_inj.mp same)
    exact ofNat_ne_feed number (Option.some.inj (List.mem_singleton.mp member)).symm
  all_goals
    repeat' split
    all_goals refine ⟨?_, fun _ member => by simp at member⟩
    all_goals simp [Waits]
    all_goals omega

theorem step_waits (waits : state.Waits) (b : UInt8) :
    (state.step b).2.Waits ∧ (b ≠ 0x0A → some '\n' ∉ (state.step b).1) := by
  obtain ⟨next, others⟩ := first_waits b
  cases state with
  | start => exact ⟨next, others⟩
  | owing code owed low high =>
    obtain ⟨bound, value⟩ := waits
    rw [step]
    split
    · next range =>
      have above : low.toNat ≤ b.toNat := UInt8.le_iff_toNat_le.mp range.1
      dsimp only
      split
      · next last =>
        have large : 0x80 ≤ code * 64 + (b.toNat - 0x80) := by
          rcases Nat.le_one_iff_eq_zero_or_eq_one.mp last with rfl | rfl <;> simp at value <;> omega
        refine ⟨trivial, fun _ member => ?_⟩
        exact ofNat_ne_feed (by omega) (Option.some.inj (List.mem_singleton.mp member)).symm
      · next more =>
        obtain ⟨k, rfl⟩ : ∃ k, owed = k + 2 := ⟨owed - 2, by omega⟩
        refine ⟨⟨by decide, ?_⟩, fun _ member => by cases member⟩
        calc 0x80 ≤ code * 64 ^ (k + 2) + (low.toNat - 0x80) * 64 ^ (k + 1) := value
          _ ≤ code * 64 ^ (k + 2) + (b.toNat - 0x80) * 64 ^ (k + 1) :=
            Nat.add_le_add_left (Nat.mul_le_mul_right _ (by omega)) _
          _ = (code * 64 + (b.toNat - 0x80)) * 64 ^ (k + 1) := by
            rw [Nat.add_mul, Nat.mul_assoc, ← Nat.pow_succ']
          _ ≤ (code * 64 + (b.toNat - 0x80)) * 64 ^ (k + 1) + _ := Nat.le_add_right ..
    · refine ⟨next, fun other member => ?_⟩
      rcases List.mem_cons.mp member with broken | later
      · cases broken
      · exact others other later

theorem step_feed (waits : state.Waits) :
    state.step 0x0A = (state.run [] ++ [some '\n'], .start) := by
  cases state with
  | start => rfl
  | owing code owed low high =>
    have range : ¬(low ≤ 0x0A ∧ 0x0A ≤ high) := by
      rw [UInt8.le_iff_toNat_le]
      intro h
      have := h.1
      have := waits.1
      simp at *
      omega
    rw [step, if_neg range]
    rfl

theorem run_feed (waits : state.Waits) (a b : Bytes) :
    state.run (a ++ 0x0A :: b) = state.run a ++ some '\n' :: run .start b := by
  induction a generalizing state with
  | nil =>
    rw [List.nil_append, run_cons, step_feed waits]
    simp
  | cons c a ih =>
    rw [List.cons_append, run_cons, run_cons, ih (step_waits waits c).1, List.append_assoc]

theorem run_no_feed (waits : state.Waits) {bytes : Bytes} (line : 0x0A ∉ bytes) :
    some '\n' ∉ state.run bytes := by
  induction bytes generalizing state with
  | nil => cases state <;> simp [run]
  | cons b bytes ih =>
    obtain ⟨first, rest⟩ := List.ne_and_not_mem_of_not_mem_cons line
    obtain ⟨next, others⟩ := step_waits waits b
    rw [run_cons, List.mem_append, not_or]
    exact ⟨others first.symm, ih next rest⟩

end Decoder

theorem decodeLossy_feed (a b : Bytes) :
    decodeLossy (a ++ 0x0A :: b) = decodeLossy a ++ '\n' :: decodeLossy b := by
  have parts : decodeParts (a ++ 0x0A :: b) = decodeParts a ++ some '\n' :: decodeParts b :=
    @Decoder.run_feed .start trivial a b
  rw [decodeLossy, parts, List.map_append]
  rfl

theorem decodeLossy_line {bytes : Bytes} (line : 0x0A ∉ bytes) : '\n' ∉ decodeLossy bytes := by
  intro member
  obtain ⟨part, inside, feed⟩ := List.mem_map.mp member
  cases part with
  | none => exact absurd feed (by decide)
  | some c =>
    obtain rfl : c = '\n' := feed
    exact @Decoder.run_no_feed .start trivial bytes line inside

end PluginAudit.Text
