import PluginAudit.Proofs.Utf8

/-!
The order of texts. Texts are compared character by character, and their bytes are in the same
order.
-/

namespace PluginAudit.Text

theorem byte_lt_iff {m n : Nat} (small : m < 256) (small' : n < 256) :
    UInt8.ofNat m < UInt8.ofNat n ↔ m < n := by
  rw [UInt8.lt_iff_toNat_lt, toNat_byte small, toNat_byte small']

theorem byte_eq_iff {m n : Nat} (small : m < 256) (small' : n < 256) :
    UInt8.ofNat m = UInt8.ofNat n ↔ m = n := by
  rw [← UInt8.toNat_inj, toNat_byte small, toNat_byte small']

/-- The bytes of two characters differ before either ends, and there in the order of the
characters. -/
theorem encodeChar_lt {c d : Char} (less : c < d) (rest rest' : Bytes) :
    String.utf8EncodeChar c ++ rest < String.utf8EncodeChar d ++ rest' := by
  have code : c.val.toNat = c.toNat := rfl
  have code' : d.val.toNat = d.toNat := rfl
  have below : c.toNat < d.toNat := less
  have high : d.toNat < 0x110000 := by
    have valid : d.toNat < 0xD800 ∨ 0xDFFF < d.toNat ∧ d.toNat < 0x110000 := d.valid
    omega
  have upper (n : Nat) : n / 64 / 64 = n / 4096 ∧ n / 4096 / 64 = n / 262144 :=
    ⟨Nat.div_div_eq_div_mul n 64 64, Nat.div_div_eq_div_mul n 4096 64⟩
  obtain ⟨third, fourth⟩ := upper c.toNat
  obtain ⟨third', fourth'⟩ := upper d.toNat
  simp only [String.utf8EncodeChar, code, code']
  -- Of two characters of different sizes the first bytes tell; of one size, the first that differs.
  repeat' split
  all_goals
    simp (disch := omega) only [List.cons_append, List.nil_append, List.cons_lt_cons_iff,
      byte_lt_iff, byte_eq_iff, Nat.mod_eq_of_lt]
    omega

theorem encode_lt {cs ds : List Char} (less : cs < ds) : encode cs < encode ds := by
  induction cs generalizing ds with
  | nil =>
    cases ds with
    | nil => exact absurd less (List.not_lt_nil _)
    | cons d ds =>
      have some : encode (d :: ds) ≠ [] := by
        simp [encode]
      cases bytes : encode (d :: ds) with
      | nil => exact absurd bytes some
      | cons b rest => exact List.nil_lt_cons b rest
  | cons c cs ih =>
    cases ds with
    | nil => exact absurd less (List.not_lt_nil _)
    | cons d ds =>
      rcases List.cons_lt_cons_iff.mp less with first | ⟨rfl, later⟩
      · exact encodeChar_lt first _ _
      · exact List.append_left_lt (ih later)

/-- Texts are in the order of their bytes. -/
theorem encode_lt_iff {s t : String} : encode s.toList < encode t.toList ↔ s < t := by
  refine ⟨fun less => ?_, fun less => encode_lt (String.lt_iff.mp less)⟩
  by_cases before : s < t
  · exact before
  · by_cases behind : t < s
    · exact absurd less (List.lt_asymm (encode_lt (String.lt_iff.mp behind)))
    · rw [String.le_antisymm (String.not_lt.mp before) (String.not_lt.mp behind)] at less
      exact absurd less (List.lt_irrefl _)

end PluginAudit.Text
