import Mathlib.Tactic.Common
import PluginAudit.Text.Utf8

/-!
Encoding and decoding. A text is read back from its bytes, and from the first of its bytes the
longest initial part that fits is read, followed by a mark if a character has been cut.
-/

namespace PluginAudit.Text

namespace Decoder

/-- From a state, some bytes lead to the end of the character `c` and to nothing before it. -/
inductive Completes (c : Char) : Decoder → Bytes → Prop
  | last {state : Decoder} {b : UInt8} (read : step state b = ([some c], .start)) :
      Completes c state [b]
  | more {state : Decoder} {b low high : UInt8} {code owed : Nat} {rest : Bytes}
      (read : step state b = ([], .owing code owed low high))
      (later : Completes c (.owing code owed low high) rest) : Completes c state (b :: rest)

variable {c : Char} {state : Decoder} {bytes : Bytes} {b low high : UInt8} {code owed : Nat}

theorem run_cons (state : Decoder) (b : UInt8) (rest : Bytes) :
    run state (b :: rest) = (step state b).1 ++ run (step state b).2 rest := by
  cases state <;> rfl

theorem Completes.run (completes : Completes c state bytes) (rest : Bytes) :
    run state (bytes ++ rest) = some c :: Decoder.run .start rest := by
  induction completes with
  | last read =>
    rw [List.singleton_append, run_cons, read]
    rfl
  | more read later ih =>
    rw [List.cons_append, run_cons, read, ih]
    rfl

/-- What is missing of a character counts as one malformed part. -/
theorem Completes.cut (completes : Completes c (.owing code owed low high) bytes) {n : Nat}
    (short : n < bytes.length) :
    Decoder.run (.owing code owed low high) (bytes.take n) = [none] := by
  generalize owing : Decoder.owing code owed low high = state at completes
  induction completes generalizing n code owed low high with
  | last read =>
    obtain rfl : n = 0 := by simpa using short
    rw [← owing]
    rfl
  | more read later ih =>
    cases n with
    | zero =>
      rw [← owing]
      rfl
    | succ n =>
      rw [List.take_succ_cons, run_cons, read]
      exact ih (by simpa using short) rfl

theorem Completes.cut_start (completes : Completes c .start bytes) {n : Nat} (some : 0 < n)
    (short : n < bytes.length) : Decoder.run .start (bytes.take n) = [none] := by
  cases completes with
  | last read =>
    simp at short
    omega
  | more read later =>
    obtain ⟨n, rfl⟩ := Nat.exists_eq_add_of_lt some
    rw [Nat.zero_add, List.take_succ_cons, run_cons, read]
    exact later.cut (by simpa using short)

theorem Completes.final (value : code * 64 + (b.toNat - 0x80) = c.toNat)
    (fits : low ≤ b ∧ b ≤ high) : Completes c (.owing code 1 low high) [b] := by
  refine .last ?_
  simp [step, fits, value]

theorem Completes.next {rest : Bytes} (fits : low ≤ b ∧ b ≤ high) (more : 1 ≤ owed)
    (later : Completes c (.owing (code * 64 + (b.toNat - 0x80)) owed 0x80 0xBF) rest) :
    Completes c (.owing code (owed + 1) low high) (b :: rest) := by
  refine .more ?_ later
  have unfinished : ¬ owed + 1 ≤ 1 := by omega
  simp only [step, if_pos fits, if_neg unfinished]
  rfl

end Decoder

open Decoder

theorem toNat_byte {n : Nat} (small : n < 256) : (UInt8.ofNat n).toNat = n := by
  simpa using Nat.mod_eq_of_lt small

theorem byte_le {m n : Nat} (small : m < 256) (above : n < 256) (le : m ≤ n) :
    UInt8.ofNat m ≤ UInt8.ofNat n := by
  rw [UInt8.le_iff_toNat_le, toNat_byte small, toNat_byte above]
  exact le

/-- A byte that continues a character, if it lies in the range that is left to it. -/
theorem tail_fits (n low high : Nat) (small : n < 0x40) (below : low ≤ n + 0x80)
    (above : n + 0x80 ≤ high) (bound : high < 256) :
    UInt8.ofNat low ≤ UInt8.ofNat (n + 0x80) ∧ UInt8.ofNat (n + 0x80) ≤ UInt8.ofNat high :=
  ⟨byte_le (by omega) (by omega) below, byte_le (by omega) bound above⟩

theorem tail_value {n : Nat} (small : n < 0x40) : (UInt8.ofNat (n + 0x80)).toNat - 0x80 = n := by
  rw [toNat_byte (by omega), Nat.add_sub_cancel]

theorem completes_two {c : Char} (low : 0x80 ≤ c.toNat) (high : c.toNat < 0x800) :
    Completes c .start
      [UInt8.ofNat (c.toNat / 64 % 32 + 0xC0), UInt8.ofNat (c.toNat % 64 + 0x80)] := by
  have lead : (UInt8.ofNat (c.toNat / 64 % 32 + 0xC0)).toNat = c.toNat / 64 + 0xC0 := by
    rw [toNat_byte (by omega)]
    omega
  have read : step .start (UInt8.ofNat (c.toNat / 64 % 32 + 0xC0)) =
      ([], .owing (c.toNat / 64) 1 0x80 0xBF) := by
    simp only [step, first, lead]
    rw [if_neg (by omega), if_neg (by omega), if_pos (by omega), Nat.add_sub_cancel]
  refine .more read (.final ?_ (tail_fits _ 0x80 0xBF (by omega) (by omega) (by omega) (by omega)))
  rw [tail_value (by omega)]
  omega

theorem completes_three {c : Char} (low : 0x800 ≤ c.toNat) (high : c.toNat < 0x10000) :
    Completes c .start [UInt8.ofNat (c.toNat / 4096 % 16 + 0xE0),
      UInt8.ofNat (c.toNat / 64 % 64 + 0x80), UInt8.ofNat (c.toNat % 64 + 0x80)] := by
  have valid : c.toNat < 0xD800 ∨ 0xDFFF < c.toNat ∧ c.toNat < 0x110000 := c.valid
  have lead : (UInt8.ofNat (c.toNat / 4096 % 16 + 0xE0)).toNat = c.toNat / 4096 + 0xE0 := by
    rw [toNat_byte (by omega)]
    omega
  have value : ∀ code, code = c.toNat / 4096 →
      (code * 64 + ((UInt8.ofNat (c.toNat / 64 % 64 + 0x80)).toNat - 0x80)) * 64 +
        ((UInt8.ofNat (c.toNat % 64 + 0x80)).toNat - 0x80) = c.toNat := by
    rintro code rfl
    rw [tail_value (by omega), tail_value (by omega)]
    omega
  have finish := tail_fits (c.toNat % 64) 0x80 0xBF (by omega) (by omega) (by omega) (by omega)
  -- What the second byte may be depends on the first one.
  by_cases least : c.toNat / 4096 = 0
  · have read : step .start (UInt8.ofNat (c.toNat / 4096 % 16 + 0xE0)) =
        ([], .owing 0 2 0xA0 0xBF) := by
      simp only [step, first, lead]
      rw [if_neg (by omega), if_neg (by omega), if_neg (by omega), if_pos (by omega)]
    refine .more read (.next (tail_fits _ 0xA0 0xBF (by omega) (by omega) (by omega) (by omega))
      (Nat.le_refl 1) ?_)
    exact .final (value 0 least.symm) finish
  · by_cases surrogates : c.toNat / 4096 = 0xD
    · have read : step .start (UInt8.ofNat (c.toNat / 4096 % 16 + 0xE0)) =
          ([], .owing 0xD 2 0x80 0x9F) := by
        simp only [step, first, lead]
        rw [if_neg (by omega), if_neg (by omega), if_neg (by omega), if_neg (by omega),
          if_pos (by omega)]
      refine .more read (.next (tail_fits _ 0x80 0x9F (by omega) (by omega) (by omega) (by omega))
        (Nat.le_refl 1) ?_)
      exact .final (value 0xD surrogates.symm) finish
    · have read : step .start (UInt8.ofNat (c.toNat / 4096 % 16 + 0xE0)) =
          ([], .owing (c.toNat / 4096) 2 0x80 0xBF) := by
        simp only [step, first, lead]
        rw [if_neg (by omega), if_neg (by omega), if_neg (by omega), if_neg (by omega),
          if_neg (by omega), if_pos (by omega), Nat.add_sub_cancel]
      refine .more read (.next (tail_fits _ 0x80 0xBF (by omega) (by omega) (by omega) (by omega))
        (Nat.le_refl 1) ?_)
      exact .final (value _ rfl) finish

theorem completes_four {c : Char} (low : 0x10000 ≤ c.toNat) :
    Completes c .start [UInt8.ofNat (c.toNat / 262144 % 8 + 0xF0),
      UInt8.ofNat (c.toNat / 4096 % 64 + 0x80), UInt8.ofNat (c.toNat / 64 % 64 + 0x80),
      UInt8.ofNat (c.toNat % 64 + 0x80)] := by
  have valid : c.toNat < 0xD800 ∨ 0xDFFF < c.toNat ∧ c.toNat < 0x110000 := c.valid
  have lead : (UInt8.ofNat (c.toNat / 262144 % 8 + 0xF0)).toNat = c.toNat / 262144 + 0xF0 := by
    rw [toNat_byte (by omega)]
    omega
  have value : ∀ code, code = c.toNat / 262144 →
      ((code * 64 + ((UInt8.ofNat (c.toNat / 4096 % 64 + 0x80)).toNat - 0x80)) * 64 +
        ((UInt8.ofNat (c.toNat / 64 % 64 + 0x80)).toNat - 0x80)) * 64 +
          ((UInt8.ofNat (c.toNat % 64 + 0x80)).toNat - 0x80) = c.toNat := by
    rintro code rfl
    rw [tail_value (by omega), tail_value (by omega), tail_value (by omega)]
    omega
  have third := tail_fits (c.toNat / 64 % 64) 0x80 0xBF (by omega) (by omega) (by omega)
    (by omega)
  have finish := tail_fits (c.toNat % 64) 0x80 0xBF (by omega) (by omega) (by omega) (by omega)
  by_cases least : c.toNat / 262144 = 0
  · have read : step .start (UInt8.ofNat (c.toNat / 262144 % 8 + 0xF0)) =
        ([], .owing 0 3 0x90 0xBF) := by
      simp only [step, first, least]
      rfl
    refine .more read (.next (tail_fits _ 0x90 0xBF (by omega) (by omega) (by omega) (by omega))
      (by decide) ?_)
    exact .next third (Nat.le_refl 1) (.final (value 0 least.symm) finish)
  · by_cases most : c.toNat / 262144 = 4
    · have read : step .start (UInt8.ofNat (c.toNat / 262144 % 8 + 0xF0)) =
          ([], .owing 4 3 0x80 0x8F) := by
        simp only [step, first, most]
        rfl
      refine .more read
        (.next (tail_fits _ 0x80 0x8F (by omega) (by omega) (by omega) (by omega))
      (by decide) ?_)
      exact .next third (Nat.le_refl 1) (.final (value 4 most.symm) finish)
    · have read : step .start (UInt8.ofNat (c.toNat / 262144 % 8 + 0xF0)) =
          ([], .owing (c.toNat / 262144) 3 0x80 0xBF) := by
        simp only [step, first, lead]
        rw [if_neg (by omega), if_neg (by omega), if_neg (by omega), if_neg (by omega),
          if_neg (by omega), if_neg (by omega), if_neg (by omega), if_pos (by omega),
          Nat.add_sub_cancel]
      refine .more read
        (.next (tail_fits _ 0x80 0xBF (by omega) (by omega) (by omega) (by omega))
      (by decide) ?_)
      exact .next third (Nat.le_refl 1) (.final (value _ rfl) finish)

theorem completes_encodeChar (c : Char) : Completes c .start (String.utf8EncodeChar c) := by
  have code : c.val.toNat = c.toNat := rfl
  simp only [String.utf8EncodeChar, code]
  split
  · rename_i small
    refine .last ?_
    have lead : (UInt8.ofNat c.toNat).toNat = c.toNat := toNat_byte (by omega)
    simp only [step, first, lead]
    rw [if_pos (by omega), Char.ofNat_toNat]
  · split
    · exact completes_two (by omega) (by omega)
    · split
      · exact completes_three (by omega) (by omega)
      · exact completes_four (by omega)

theorem byteSize_append (a b : List Char) : byteSize (a ++ b) = byteSize a + byteSize b := by
  induction a with
  | nil => simp [byteSize]
  | cons c rest ih => simp [byteSize, ih, Nat.add_assoc]

theorem byteSize_begins {head cs : List Char} (begins : head <+: cs) :
    byteSize head ≤ byteSize cs := by
  obtain ⟨more, rfl⟩ := begins
  rw [byteSize_append]
  exact Nat.le_add_right _ _

theorem byteSize_replicate (n : Nat) (c : Char) :
    byteSize (List.replicate n c) = n * c.utf8Size := by
  induction n with
  | zero => rw [Nat.zero_mul]; rfl
  | succ n ih => rw [List.replicate_succ, byteSize, ih, Nat.succ_mul, Nat.add_comm]

theorem encode_cons (c : Char) (cs : List Char) :
    encode (c :: cs) = String.utf8EncodeChar c ++ encode cs := List.flatMap_cons

theorem encode_append (a b : List Char) : encode (a ++ b) = encode a ++ encode b :=
  List.flatMap_append

theorem length_encode (cs : List Char) : (encode cs).length = byteSize cs := by
  induction cs with
  | nil => rfl
  | cons c rest ih =>
    rw [encode_cons, List.length_append, String.length_utf8EncodeChar, byteSize, ih]

theorem length_le_byteSize (cs : List Char) : cs.length ≤ byteSize cs := by
  induction cs with
  | nil => exact Nat.le_refl 0
  | cons c rest ih =>
    have some := Char.utf8Size_pos c
    rw [List.length_cons, byteSize]
    omega

theorem byteSize_takeBytes (limit : Nat) (cs : List Char) :
    byteSize (takeBytes limit cs) ≤ limit := by
  induction cs generalizing limit with
  | nil => exact Nat.zero_le _
  | cons c rest ih =>
    simp only [takeBytes]
    split
    · have later := ih (limit - c.utf8Size)
      simp only [byteSize]
      omega
    · exact Nat.zero_le _

theorem takeBytes_of_fits {limit : Nat} {cs : List Char} (fits : byteSize cs ≤ limit) :
    takeBytes limit cs = cs := by
  induction cs generalizing limit with
  | nil => rfl
  | cons c rest ih =>
    simp only [byteSize] at fits
    rw [takeBytes, if_pos (by omega), ih (by omega)]

theorem takeBytes_append {limit : Nat} {cs : List Char} (fits : byteSize cs ≤ limit)
    (more : List Char) :
    takeBytes limit (cs ++ more) = cs ++ takeBytes (limit - byteSize cs) more := by
  induction cs generalizing limit with
  | nil => rfl
  | cons c rest ih =>
    simp only [byteSize] at fits ⊢
    rw [List.cons_append, takeBytes, if_pos (by omega), ih (by omega), List.cons_append,
      Nat.sub_add_eq]

theorem takeBytes_begins (limit : Nat) (cs : List Char) : takeBytes limit cs <+: cs := by
  induction cs generalizing limit with
  | nil => exact List.nil_prefix
  | cons c rest ih =>
    rw [takeBytes]
    split
    · exact List.cons_prefix_cons.mpr ⟨rfl, ih _⟩
    · exact List.nil_prefix

theorem begins_takeBytes {limit : Nat} {head cs : List Char} (begins : head <+: cs)
    (fits : byteSize head ≤ limit) : head <+: takeBytes limit cs := by
  obtain ⟨more, rfl⟩ := begins
  rw [takeBytes_append fits]
  exact List.prefix_append _ _

theorem limit_le_of_cut {limit : Nat} {cs : List Char} (cut : takeBytes limit cs ≠ cs) :
    limit ≤ byteSize (takeBytes limit cs) + 3 := by
  induction cs generalizing limit with
  | nil => exact absurd rfl cut
  | cons c rest ih =>
    have small := Char.utf8Size_le_four c
    simp only [takeBytes] at cut ⊢
    split at cut
    · rename_i fits
      have later := ih fun same => cut (congrArg (c :: ·) same)
      simp only [if_pos fits, byteSize]
      omega
    · rename_i long
      simp only [if_neg long, byteSize]
      omega

/-- Whether a limit leaves a part of a character, so that less of a text fits than there is room
for. -/
def splits (limit : Nat) (cs : List Char) : Prop :=
  byteSize (takeBytes limit cs) < limit ∧ takeBytes limit cs ≠ cs

instance (limit : Nat) (cs : List Char) : Decidable (splits limit cs) :=
  inferInstanceAs (Decidable (_ ∧ _))

theorem splits_cons {limit : Nat} {c : Char} {rest : List Char} (fits : c.utf8Size ≤ limit) :
    splits limit (c :: rest) ↔ splits (limit - c.utf8Size) rest := by
  simp only [splits, takeBytes, if_pos fits, byteSize, ne_eq, List.cons.injEq, true_and]
  refine and_congr_left fun _ => ?_
  omega

/-- The first bytes of a text are read as the characters that fit, and a malformed part if a
character has been cut. -/
theorem decodeParts_take (limit : Nat) (cs : List Char) :
    decodeParts ((encode cs).take limit) =
      (takeBytes limit cs).map some ++ if splits limit cs then [none] else [] := by
  induction cs generalizing limit with
  | nil =>
    have whole : ¬ splits limit [] := fun s => s.2 rfl
    rw [if_neg whole, encode, List.flatMap_nil, List.take_nil]
    rfl
  | cons c rest ih =>
    have size := String.length_utf8EncodeChar c
    have completes := completes_encodeChar c
    by_cases fits : c.utf8Size ≤ limit
    · have first : (encode (c :: rest)).take limit =
          String.utf8EncodeChar c ++ (encode rest).take (limit - c.utf8Size) := by
        rw [encode_cons, List.take_append, size, List.take_of_length_le (by omega)]
      have later := ih (limit - c.utf8Size)
      simp only [decodeParts] at later ⊢
      rw [first, completes.run, later, takeBytes, if_pos fits, List.map_cons, List.cons_append]
      simp only [splits_cons fits]
    · have first : (encode (c :: rest)).take limit = (String.utf8EncodeChar c).take limit := by
        rw [encode_cons, List.take_append_of_le_length (by omega)]
      rw [first, takeBytes, if_neg fits, List.map_nil, List.nil_append]
      cases limit with
      | zero =>
        have whole : ¬ splits 0 (c :: rest) := fun s => absurd s.1 (Nat.not_lt_zero _)
        rw [if_neg whole]
        rfl
      | succ n =>
        have cut : splits (n + 1) (c :: rest) := by
          simp [splits, takeBytes, if_neg fits, byteSize]
        rw [if_pos cut]
        exact completes.cut_start (Nat.succ_pos n) (by omega)

theorem decodeLossy_take (limit : Nat) (cs : List Char) :
    decodeLossy ((encode cs).take limit) =
      takeBytes limit cs ++ if splits limit cs then ['\uFFFD'] else [] := by
  rw [decodeLossy, decodeParts_take, List.map_append, List.map_map]
  have kept : (takeBytes limit cs).map ((·.getD '\uFFFD') ∘ some) = takeBytes limit cs := by
    simp [Function.comp_def]
  rw [kept]
  split <;> rfl

theorem decodeParts_append (cs : List Char) (more : Bytes) :
    decodeParts (encode cs ++ more) = cs.map some ++ decodeParts more := by
  induction cs with
  | nil => rfl
  | cons c rest ih =>
    simp only [decodeParts] at ih ⊢
    rw [encode_cons, List.append_assoc, (completes_encodeChar c).run, ih]
    rfl

theorem decode?_append (cs : List Char) (more : Bytes) :
    decode? (encode cs ++ more) = (decode? more).map (cs ++ ·) := by
  rw [decode?, decode?, decodeParts_append, List.mapM_append]
  have read : (cs.map some).mapM id = some cs := by
    induction cs with
    | nil => rfl
    | cons c rest ih =>
      rw [List.map_cons, List.mapM_cons, ih]
      rfl
  rw [read]
  cases (decodeParts more).mapM id <;> rfl

theorem decode?_encode (cs : List Char) : decode? (encode cs) = some cs := by
  have whole := decode?_append cs []
  rw [List.append_nil] at whole
  rw [whole]
  exact congrArg some (List.append_nil cs)

theorem decodeLossy_encode (cs : List Char) : decodeLossy (encode cs) = cs := by
  have whole := decodeParts_append cs []
  rw [List.append_nil] at whole
  rw [decodeLossy, whole]
  simp [decodeParts, Decoder.run, Function.comp_def]

end PluginAudit.Text
