import PluginAudit.Proofs.TextLines
import PluginAudit.Proofs.TreePlaces
import PluginAudit.Proofs.Utf8

/-!
Bytes that can be read as a text. They are exactly the bytes of that text, so that a file is read
as a text if and only if it holds the text's bytes.
-/

namespace PluginAudit

namespace Text

namespace Decoder

variable {b low high : UInt8} {code : Nat} {bytes : Bytes} {cs : List Char}

theorem encodeChar_one (small : b.toNat < 0x80) :
    String.utf8EncodeChar (Char.ofNat b.toNat) = [b] := by
  have value := toNat_ofNat (n := b.toNat) (.inl (by omega))
  have code : (Char.ofNat b.toNat).val.toNat = b.toNat := value
  simp only [String.utf8EncodeChar, code]
  rw [if_pos (by omega), UInt8.ofNat_toNat]

theorem byte_of_toNat {n : Nat} (value : n = b.toNat) : UInt8.ofNat n = b := by
  rw [value, UInt8.ofNat_toNat]

theorem encodeChar_two {second : UInt8} (lead : b.toNat = code + 0xC0)
    (least : 2 ≤ code) (most : code < 0x20)
    (tail : 0x80 ≤ second.toNat ∧ second.toNat ≤ 0xBF) :
    String.utf8EncodeChar (Char.ofNat (code * 64 + (second.toNat - 0x80))) = [b, second] := by
  generalize number : code * 64 + (second.toNat - 0x80) = n
  have value : (Char.ofNat n).val.toNat = n := toNat_ofNat (.inl (by omega))
  simp only [String.utf8EncodeChar, value]
  rw [if_neg (by omega), if_pos (by omega), byte_of_toNat (b := b) (by omega),
    byte_of_toNat (b := second) (by omega)]

theorem encodeChar_three {second third : UInt8} (lead : b.toNat = code + 0xE0) (most : code < 0x10)
    (tail : 0x80 ≤ second.toNat ∧ second.toNat ≤ 0xBF)
    (shortest : code = 0 → 0xA0 ≤ second.toNat) (valid : code = 0xD → second.toNat ≤ 0x9F)
    (last : 0x80 ≤ third.toNat ∧ third.toNat ≤ 0xBF) :
    String.utf8EncodeChar
        (Char.ofNat ((code * 64 + (second.toNat - 0x80)) * 64 + (third.toNat - 0x80))) =
      [b, second, third] := by
  generalize number : (code * 64 + (second.toNat - 0x80)) * 64 + (third.toNat - 0x80) = n
  have scalar : n.isValidChar := by
    rw [Nat.isValidChar]
    omega
  have value : (Char.ofNat n).val.toNat = n := toNat_ofNat scalar
  simp only [String.utf8EncodeChar, value]
  rw [if_neg (by omega), if_neg (by omega), if_pos (by omega), byte_of_toNat (b := b) (by omega),
    byte_of_toNat (b := second) (by omega), byte_of_toNat (b := third) (by omega)]

theorem encodeChar_four {second third fourth : UInt8} (lead : b.toNat = code + 0xF0)
    (most : code ≤ 4) (tail : 0x80 ≤ second.toNat ∧ second.toNat ≤ 0xBF)
    (shortest : code = 0 → 0x90 ≤ second.toNat) (valid : code = 4 → second.toNat ≤ 0x8F)
    (next : 0x80 ≤ third.toNat ∧ third.toNat ≤ 0xBF)
    (last : 0x80 ≤ fourth.toNat ∧ fourth.toNat ≤ 0xBF) :
    String.utf8EncodeChar (Char.ofNat (((code * 64 + (second.toNat - 0x80)) * 64 +
        (third.toNat - 0x80)) * 64 + (fourth.toNat - 0x80))) = [b, second, third, fourth] := by
  generalize number : ((code * 64 + (second.toNat - 0x80)) * 64 + (third.toNat - 0x80)) * 64 +
    (fourth.toNat - 0x80) = n
  have scalar : n.isValidChar := by
    rw [Nat.isValidChar]
    omega
  have value : (Char.ofNat n).val.toNat = n := toNat_ofNat scalar
  simp only [String.utf8EncodeChar, value]
  rw [if_neg (by omega), if_neg (by omega), if_neg (by omega), byte_of_toNat (b := b) (by omega),
    byte_of_toNat (b := second) (by omega), byte_of_toNat (b := third) (by omega),
    byte_of_toNat (b := fourth) (by omega)]

/-- A byte that is owed comes, and lies in its range. -/
theorem run_owing {owed : Nat} (read : run (.owing code owed low high) bytes = cs.map some) :
    ∃ b rest, bytes = b :: rest ∧ (low.toNat ≤ b.toNat ∧ b.toNat ≤ high.toNat) ∧
      if owed ≤ 1 then
        ∃ later, cs = Char.ofNat (code * 64 + (b.toNat - 0x80)) :: later ∧
          run .start rest = later.map some
      else run (.owing (code * 64 + (b.toNat - 0x80)) (owed - 1) 0x80 0xBF) rest = cs.map some := by
  cases bytes with
  | nil => cases cs <;> simp [run] at read
  | cons b rest =>
    refine ⟨b, rest, rfl, ?_⟩
    rw [run_cons, step] at read
    split at read
    · rename_i fits
      refine ⟨⟨UInt8.le_iff_toNat_le.mp fits.1, UInt8.le_iff_toNat_le.mp fits.2⟩, ?_⟩
      split
      · rename_i final
        simp only [if_pos final] at read
        cases cs with
        | nil => cases read
        | cons c later =>
          obtain ⟨same, rest⟩ := List.cons.inj read
          exact ⟨later, by rw [Option.some.inj same], rest⟩
      · rename_i more
        simpa only [if_neg more, List.nil_append] using read
    · cases cs <;> simp at read

/-- The bytes begin with those of the first character, and the others are read from the rest. -/
def ReadsFirst (bytes : Bytes) (cs : List Char) : Prop :=
  ∃ c later rest, cs = c :: later ∧ bytes = String.utf8EncodeChar c ++ rest ∧
    run .start rest = later.map some

theorem readsFirst_two (lead : b.toNat = code + 0xC0) (least : 2 ≤ code) (most : code < 0x20)
    (read : run (.owing code 1 0x80 0xBF) bytes = cs.map some) : ReadsFirst (b :: bytes) cs := by
  obtain ⟨second, rest, rfl, tail, later, rfl, ends⟩ := run_owing read
  refine ⟨_, later, rest, rfl, ?_, ends⟩
  rw [encodeChar_two lead least most tail]
  rfl

theorem readsFirst_three (lead : b.toNat = code + 0xE0) (most : code < 0x10)
    (range : 0x80 ≤ low.toNat ∧ high.toNat ≤ 0xBF) (shortest : code = 0 → 0xA0 ≤ low.toNat)
    (valid : code = 0xD → high.toNat ≤ 0x9F)
    (read : run (.owing code 2 low high) bytes = cs.map some) : ReadsFirst (b :: bytes) cs := by
  obtain ⟨second, rest₁, rfl, tail, read⟩ := run_owing read
  obtain ⟨third, rest, rfl, last, later, rfl, ends⟩ := run_owing read
  refine ⟨_, later, rest, rfl, ?_, ends⟩
  rw [encodeChar_three lead most (by omega) (by omega) (by omega) last]
  rfl

theorem readsFirst_four (lead : b.toNat = code + 0xF0) (most : code ≤ 4)
    (range : 0x80 ≤ low.toNat ∧ high.toNat ≤ 0xBF) (shortest : code = 0 → 0x90 ≤ low.toNat)
    (valid : code = 4 → high.toNat ≤ 0x8F)
    (read : run (.owing code 3 low high) bytes = cs.map some) : ReadsFirst (b :: bytes) cs := by
  obtain ⟨second, rest₁, rfl, tail, read⟩ := run_owing read
  obtain ⟨third, rest₂, rfl, next, read⟩ := run_owing read
  obtain ⟨fourth, rest, rfl, last, later, rfl, ends⟩ := run_owing read
  refine ⟨_, later, rest, rfl, ?_, ends⟩
  rw [encodeChar_four lead most (by omega) (by omega) (by omega) next last]
  rfl

theorem readsFirst_of_run (read : run .start (b :: bytes) = cs.map some) :
    ReadsFirst (b :: bytes) cs := by
  have malformed {more : List (Option Char)} (broken : none :: more = cs.map some) :
      ReadsFirst (b :: bytes) cs := by
    cases cs <;> simp at broken
  simp only [run_cons, step, first] at read
  -- The classes of the first byte; the range it leaves to the second one rules out the longer forms
  -- of a character and the surrogates.
  split at read
  · rename_i ascii
    cases cs with
    | nil => cases read
    | cons c later =>
      obtain ⟨same, ends⟩ := List.cons.inj read
      refine ⟨c, later, bytes, rfl, ?_, ends⟩
      rw [← Option.some.inj same, encodeChar_one ascii]
      rfl
  split at read
  · exact malformed read
  split at read
  · exact readsFirst_two (by omega) (by omega) (by omega) read
  split at read
  · exact readsFirst_three (by omega) (by omega) (by decide) (by decide) (by decide) read
  split at read
  · exact readsFirst_three (by omega) (by omega) (by decide) (by decide) (by decide) read
  split at read
  · exact readsFirst_three (by omega) (by omega) (by decide) (by omega) (by omega) read
  split at read
  · exact readsFirst_four (by omega) (by omega) (by decide) (by decide) (by decide) read
  split at read
  · exact readsFirst_four (by omega) (by omega) (by decide) (by omega) (by omega) read
  split at read
  · exact readsFirst_four (by omega) (by omega) (by decide) (by decide) (by decide) read
  · exact malformed read

theorem eq_encode_of_run (read : run .start bytes = cs.map some) : bytes = encode cs := by
  induction cs generalizing bytes with
  | nil =>
    cases bytes with
    | nil => rfl
    | cons b rest =>
      obtain ⟨c, later, rest, none, -⟩ := readsFirst_of_run read
      cases none
  | cons c later ih =>
    cases bytes with
    | nil => cases read
    | cons b rest =>
      obtain ⟨c, later, rest, same, split, ends⟩ := readsFirst_of_run read
      obtain ⟨rfl, rfl⟩ := List.cons.inj same
      rw [split, ih ends]
      rfl

end Decoder

theorem eq_map_some_of_mapM {parts : List (Option Char)} {cs : List Char}
    (all : parts.mapM id = some cs) : parts = cs.map some := by
  induction parts generalizing cs with
  | nil =>
    obtain rfl := Option.some.inj all
    rfl
  | cons part rest ih =>
    rw [List.mapM_cons, id, Option.bind_eq_bind, Option.bind_eq_some_iff] at all
    obtain ⟨c, rfl, later⟩ := all
    obtain ⟨ds, read, same⟩ := Option.bind_eq_some_iff.mp later
    obtain rfl := Option.some.inj same
    rw [ih read, List.map_cons]

theorem decode?_eq_some_iff {bytes : Bytes} {cs : List Char} :
    decode? bytes = some cs ↔ bytes = encode cs := by
  constructor
  · intro read
    exact Decoder.eq_encode_of_run (eq_map_some_of_mapM read)
  · rintro rfl
    exact decode?_encode cs

end Text

namespace FileTree

/-- Whether a path leads to a file with the bytes of a text. -/
def Holds (tree : FileTree) (p : Path) (text : List Char) : Prop :=
  tree.read p = .ok (Text.encode text)

theorem readText_eq_ok_iff {tree : FileTree} {p : Path} {text : List Char} :
    tree.readText p = .ok text ↔ tree.Holds p text := by
  constructor
  · intro read
    unfold readText at read
    cases found : tree.read p with
    | error e => simp [found] at read
    | ok data =>
      simp only [found] at read
      split at read
      · rename_i whole decoded
        obtain rfl := Except.ok.inj read
        rw [Holds, found, Text.decode?_eq_some_iff.mp decoded]
      · cases read
  · exact fun held => readText_of_read held

/-- Whether a path leads to a file that can be read as a text. -/
def Readable (tree : FileTree) (p : Path) : Prop := ∃ text, tree.Holds p text

/-- The text of a file; none of it if the file cannot be read. -/
def textAt (tree : FileTree) (p : Path) : List Char :=
  match tree.readText p with
  | .ok text => text
  | .error _ => []

theorem Holds.textAt {tree : FileTree} {p : Path} {text : List Char} (held : tree.Holds p text) :
    tree.textAt p = text := by
  rw [FileTree.textAt, readText_eq_ok_iff.mpr held]

theorem Readable.readText {tree : FileTree} {p : Path} (readable : tree.Readable p) :
    tree.readText p = .ok (tree.textAt p) := by
  obtain ⟨text, held⟩ := readable
  rw [held.textAt]
  exact readText_eq_ok_iff.mpr held

theorem error_of_not_readable {tree : FileTree} {p : Path} (unreadable : ¬tree.Readable p) :
    ∃ cause, tree.readText p = .error cause := by
  cases read : tree.readText p with
  | ok text => exact absurd ⟨text, readText_eq_ok_iff.mp read⟩ unreadable
  | error cause => exact ⟨cause, rfl⟩

end FileTree

end PluginAudit
