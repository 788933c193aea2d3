import PluginAudit.Proofs.TextLines
import PluginAudit.Readme.Line
import PluginAudit.Version

/-!
Versions as they are written: a pair of numbers is read again from its text, and is neither before
the release it names nor after the one that follows.
-/

namespace PluginAudit

namespace Text

theorem isBlank_digit {c : Char} (digit : c.isDigit = true) : isBlank c = false := by
  have low : 48 ≤ c.toNat ∧ c.toNat ≤ 57 := by
    simpa [Char.isDigit, UInt32.le_iff_toNat_le, ← Char.toNat_val] using digit
  simp only [isBlank, Bool.or_eq_false_iff, Bool.and_eq_false_iff, decide_eq_false_iff_not,
    beq_eq_false_iff_ne]
  omega

/-- A text without any white space is trimmed. -/
theorem trim_solid {cs : List Char} (solid : ∀ c ∈ cs, isBlank c = false) : trim cs = cs := by
  have start : trimStart cs = cs := by
    cases cs with
    | nil => rfl
    | cons c rest => exact trimStart_cons (solid c List.mem_cons_self)
  rw [trim, start, trimEnd]
  rcases List.eq_nil_or_concat cs with rfl | ⟨first, last, rfl⟩
  · rfl
  · rw [List.concat_eq_append]
    exact dropEndWhile_concat (solid last (by simp))

theorem digits_repr (n : Nat) : ∀ c ∈ n.repr.toList, c.isDigit = true := by
  intro c member
  rw [Nat.toList_repr] at member
  exact Nat.isDigit_of_mem_toDigits (by decide) (by decide) member

theorem repr_ne_nil (n : Nat) : n.repr.toList ≠ [] := by
  rw [Nat.toList_repr]
  exact Nat.toDigits_ne_nil

/-- Reading digits up to a bound, which stands for all greater numbers. -/
theorem foldl_min (bound : Nat) (digits : List Char) (n : Nat) :
    digits.foldl (fun n c => min (n * 10 + (c.toNat - 48)) bound) (min n bound) =
      min (Nat.ofDigitChars 10 digits n) bound := by
  induction digits generalizing n with
  | nil => rfl
  | cons c rest ih =>
    have step : min (min n bound * 10 + (c.toNat - 48)) bound =
        min (n * 10 + (c.toNat - 48)) bound := by omega
    have zero : '0'.toNat = 48 := rfl
    rw [List.foldl_cons, step, ih, Nat.ofDigitChars_cons, zero, Nat.mul_comm]

theorem natural?_repr {bound n : Nat} (below : n < bound) :
    natural? bound n.repr.toList = some n := by
  have some : n.repr.toList.isEmpty = false := List.isEmpty_eq_false_iff.mpr (repr_ne_nil n)
  have digits : n.repr.toList.all Char.isDigit = true := List.all_eq_true.mpr (digits_repr n)
  have value : n.repr.toList.foldl (fun n c => min (n * 10 + (c.toNat - 48)) bound) 0 = n := by
    have read := foldl_min bound n.repr.toList 0
    rw [Nat.zero_min, Nat.toList_repr, Nat.ofDigitChars_ten_toDigits] at read
    rw [Nat.toList_repr, read]
    omega
  unfold natural?
  split
  · rename_i rest written
    have digit := digits_repr n '+' (by rw [written]; exact List.mem_cons_self)
    exact absurd digit (by decide)
  · simp only [some, digits, value, below]
    rfl

end Text

namespace Version

open Text

theorem splitAt_pairText (p : Nat × Nat) :
    splitAt '.' (pairText p).toList = [p.1.repr.toList, p.2.repr.toList] := by
  have noDot (n : Nat) : '.' ∉ n.repr.toList := fun member =>
    absurd (digits_repr n _ member) (by decide)
  have written : (pairText p).toList = p.1.repr.toList ++ '.' :: p.2.repr.toList := by
    simp [pairText, String.toList_append]
  rw [written, splitAt_append (noDot p.1), splitAt_line (noDot p.2)]

theorem trim_pairText (p : Nat × Nat) : trim (pairText p).toList = (pairText p).toList := by
  refine trim_solid fun c member => ?_
  simp only [pairText, String.toList_append, List.mem_append] at member
  rcases member with (first | dot) | second
  · exact isBlank_digit (digits_repr _ c first)
  · obtain rfl : c = '.' := by simpa using dot
    decide
  · exact isBlank_digit (digits_repr _ c second)

theorem isVersion_pairText (p : Nat × Nat) : Readme.isVersion (pairText p).toList = true := by
  have digits (n : Nat) : n.repr.toList.all Text.isDigit = true := by
    refine List.all_eq_true.mpr fun c member => ?_
    have digit := digits_repr n c member
    have low : c.toNat < 0x80 := by
      have range : 48 ≤ c.toNat ∧ c.toNat ≤ 57 := by
        simpa [Char.isDigit, UInt32.le_iff_toNat_le, ← Char.toNat_val] using digit
      omega
    rw [Text.isDigit, if_pos low, digit]
  have some (n : Nat) : n.repr.toList.isEmpty = false :=
    List.isEmpty_eq_false_iff.mpr (repr_ne_nil n)
  simp only [Readme.isVersion, splitAt_pairText, List.all_cons, List.all_nil, digits, some]
  rfl

theorem pair?_pairText {p : Nat × Nat} (major : p.1 < numberBound) (minor : p.2 < numberBound) :
    pair? (pairText p).toList = some p := by
  have whole : p.2.repr.toList.takeWhile Char.isDigit = p.2.repr.toList :=
    List.takeWhile_eq_self_iff.mpr (digits_repr p.2)
  simp only [pair?, trim_pairText, splitAt_pairText, whole, number?, natural?_repr major,
    natural?_repr minor]
  rfl

theorem natural?_lt {bound n : Nat} {text : List Char} (read : natural? bound text = some n) :
    n < bound := by
  simp only [natural?, Option.ite_none_left_eq_some, Option.ite_none_right_eq_some,
    Option.some.injEq] at read
  obtain ⟨-, small, rfl⟩ := read
  exact small

/-- The numbers of a version that is read have 32 bits. -/
theorem pair?_lt {version : List Char} {p : Nat × Nat} (read : pair? version = some p) :
    p.1 < numberBound ∧ p.2 < numberBound := by
  unfold pair? at read
  split at read
  · cases read
  · obtain ⟨n, major, rfl⟩ := Option.map_eq_some_iff.mp read
    exact ⟨natural?_lt major, (by decide : 0 < numberBound)⟩
  · obtain ⟨a, major, rest⟩ := Option.bind_eq_some_iff.mp read
    obtain ⟨b, minor, same⟩ := Option.bind_eq_some_iff.mp rest
    cases same
    exact ⟨natural?_lt major, natural?_lt minor⟩

theorem lessPair_self (p : Nat × Nat) : lessPair p p = false := by
  simp [lessPair]

/-- The release after a pair, where numbers have no bound. -/
def following (p : Nat × Nat) : Nat × Nat := if p.2 < 9 then (p.1, p.2 + 1) else (p.1 + 1, 0)

/-- No release follows the tenth minor one of the last major number. -/
def IsLast (p : Nat × Nat) : Prop := p.1 + 1 = numberBound ∧ 9 ≤ p.2

theorem following_bounded_iff {p : Nat × Nat} (major : p.1 < numberBound) :
    ((following p).1 < numberBound ∧ (following p).2 < numberBound) ↔ ¬IsLast p := by
  have bound : numberBound = 4294967296 := rfl
  rw [IsLast, following]
  split <;> simp only <;> omega

theorem next?_eq_some_iff {p q : Nat × Nat} (major : p.1 < numberBound) :
    next? p = some q ↔ ¬IsLast p ∧ q = following p := by
  have bound : numberBound = 4294967296 := rfl
  rw [next?, following, IsLast]
  split
  · rename_i early
    simp only [Option.some.injEq, eq_comm, iff_and_self]
    omega
  · split
    · rename_i fits
      simp only [Option.some.injEq, eq_comm, iff_and_self]
      omega
    · refine iff_of_false nofun fun more => more.1 ?_
      omega

theorem next?_eq_none_iff {p : Nat × Nat} (major : p.1 < numberBound) :
    next? p = none ↔ IsLast p := by
  refine ⟨fun none => ?_, fun last => ?_⟩
  · by_contra more
    rw [(next?_eq_some_iff major).mpr ⟨more, rfl⟩] at none
    cases none
  · by_contra some
    obtain ⟨q, next⟩ := Option.ne_none_iff_exists'.mp some
    exact ((next?_eq_some_iff major).mp next).1 last

/-- Of what a release is compared with, it is neither too old nor too new. -/
theorem not_lessPair_following (p : Nat × Nat) : lessPair (following p) p = false := by
  rw [following]
  split <;> simp [lessPair]

end Version

end PluginAudit
