import PluginAudit.Proofs.DatabaseSteps
import PluginAudit.Proofs.TextLines

/-!
Spellings of one name. The database takes two names for the same table if they are equal up to the
case of their letters, and such names are valid together.
-/

namespace PluginAudit

namespace Text

theorem toLower_cases (c : Char) :
    c.toLower = c ∨ 65 ≤ c.toNat ∧ c.toNat ≤ 90 ∧ c.toLower.toNat = c.toNat + 32 := by
  unfold Char.toLower
  split
  · rename_i upper
    have low : 65 ≤ c.toNat := upper.1
    have high : c.toNat ≤ 90 := upper.2
    refine .inr ⟨low, high, ?_⟩
    change (c.val + 32).toNat = c.toNat + 32
    rw [UInt32.toNat_add]
    exact Nat.mod_eq_of_lt (by simp only [Char.toNat_val, UInt32.reduceToNat]; omega)
  · exact .inl rfl

theorem isDigit_toLower (c : Char) : c.toLower.isDigit = c.isDigit := by
  rcases toLower_cases c with same | ⟨low, high, lower⟩
  · rw [same]
  · rw [Bool.eq_iff_iff, isDigit_iff, isDigit_iff]
    omega

theorem sameIgnoringCase_iff {a b : String} :
    a.sameIgnoringCase b ↔ asciiLower a.toList = asciiLower b.toList := by
  simp [String.sameIgnoringCase, sameIgnoringCase]

theorem sameIgnoringCase_comm (a b : String) : a.sameIgnoringCase b = b.sameIgnoringCase a := by
  rw [Bool.eq_iff_iff, sameIgnoringCase_iff, sameIgnoringCase_iff, eq_comm]

theorem sameIgnoringCase_congr {a b : String} (h : a.sameIgnoringCase b) (c : String) :
    c.sameIgnoringCase a = c.sameIgnoringCase b := by
  rw [Bool.eq_iff_iff, sameIgnoringCase_iff, sameIgnoringCase_iff, sameIgnoringCase_iff.mp h]

end Text

namespace Namespace

open Text

theorem isNameChar_iff (c : Char) : isNameChar c ↔
    65 ≤ c.toNat ∧ c.toNat ≤ 90 ∨ 97 ≤ c.toNat ∧ c.toNat ≤ 122 ∨
      48 ≤ c.toNat ∧ c.toNat ≤ 57 ∨ c.toNat = 95 := by
  have underscore : c = '_' ↔ c.toNat = 95 := by
    rw [← Char.toNat_inj]
    rfl
  have letters : isNameChar c = (decide (65 ≤ c.val ∧ c.val ≤ 90) ||
      (decide (97 ≤ c.val) && decide (c.val ≤ 122)) || c.isDigit || c == '_') := rfl
  simp [letters, Char.isDigit, UInt32.le_iff_toNat_le, ← Char.toNat_val, underscore, or_assoc]

theorem isNameChar_toLower (c : Char) : isNameChar c.toLower = isNameChar c := by
  rcases toLower_cases c with same | ⟨low, high, lower⟩
  · rw [same]
  · rw [Bool.eq_iff_iff, isNameChar_iff, isNameChar_iff]
    omega

theorem check_ok_iff {name : String} :
    check name = .ok () ↔
      asciiLower name.toList ≠ [] ∧ (asciiLower name.toList).all isNameChar := by
  have lowered : (asciiLower name.toList).all isNameChar = name.toList.all isNameChar := by
    simp only [asciiLower, List.all_map, Function.comp_def, isNameChar_toLower]
  have nonempty : asciiLower name.toList ≠ [] ↔ name.isEmpty = false := by
    simp [asciiLower]
  rw [lowered, nonempty]
  unfold check
  split
  · simp_all
  · split <;> simp_all

theorem check_respelled {p q : String} (h : p.sameIgnoringCase q) :
    check p = .ok () ↔ check q = .ok () := by
  rw [check_ok_iff, check_ok_iff, sameIgnoringCase_iff.mp h]

/-- The name has no capital letters. -/
def IsLower (name : String) : Prop := asciiLower name.toList = name.toList

theorem IsLower.same_iff {p q : String} (hp : IsLower p) (hq : IsLower q) :
    p.sameIgnoringCase q ↔ p = q := by
  rw [sameIgnoringCase_iff, hp, hq, String.toList_inj]

end Namespace

namespace Database

open Text

theorem tableName_injective {p q : String} (h : tableName p = tableName q) : p = q := by
  rw [← String.toList_inj] at h ⊢
  simpa [tableName] using h

theorem same_tableName (p q : String) :
    (tableName p).sameIgnoringCase (tableName q) = p.sameIgnoringCase q := by
  rw [Bool.eq_iff_iff, sameIgnoringCase_iff, sameIgnoringCase_iff]
  simp [tableName, asciiLower]

theorem checkToken_ok_iff {name : String} : checkToken name = .ok () ↔
    (asciiLower name.toList).head?.any Char.isDigit = false := by
  have lowered : (asciiLower name.toList).head?.any Char.isDigit =
      name.toList.head?.any Char.isDigit := by
    cases name.toList with
    | nil => rfl
    | cons c rest => exact isDigit_toLower c
  rw [lowered]
  unfold checkToken
  split <;> simp_all

theorem checkToken_respelled {p q : String} (h : p.sameIgnoringCase q) :
    checkToken (tableName p) = .ok () ↔ checkToken (tableName q) = .ok () := by
  rw [checkToken_ok_iff, checkToken_ok_iff,
    sameIgnoringCase_iff.mp ((same_tableName p q).trans h)]

theorem find?_spec {d : Database} {table : String} {t : OptionTable}
    (h : d.find? table = some t) : t ∈ d.tables ∧ t.name.sameIgnoringCase table :=
  ⟨List.mem_of_find?_eq_some h,
    List.find?_some (p := fun t : OptionTable => t.name.sameIgnoringCase table) h⟩

theorem find?_respelled (d : Database) {p q : String} (same : p.sameIgnoringCase q) :
    d.find? (tableName p) = d.find? (tableName q) := by
  refine congrArg (List.find? · d.tables) (funext fun t => ?_)
  exact sameIgnoringCase_congr ((same_tableName p q).trans same) t.name

/-- A table that is added where there was none is found under all spellings of its name. -/
theorem find?_added {d : Database} {name : String} (missing : d.find? (tableName name) = none)
    (registered : List String) (q : String) :
    ({ d with
      tables := d.tables ++ [⟨tableName name, []⟩]
      registered } : Database).find? (tableName q) =
      if name.sameIgnoringCase q then some ⟨tableName name, []⟩ else d.find? (tableName q) := by
  simp only [find?, List.find?_append, List.find?_singleton, same_tableName]
  split
  · rename_i same
    have respelled : d.tables.find? (·.name.sameIgnoringCase (tableName q)) = none :=
      (find?_respelled d same).symm.trans missing
    rw [respelled]
    rfl
  · exact Option.or_none

/-- Dropping a namespace takes away the tables of all spellings of its name, and no others. -/
theorem drop_find? {d e : Database} {current name : String} (h : d.drop current name = .ok e)
    (q : String) : e.find? (tableName q) =
      if name.sameIgnoringCase q then none else d.find? (tableName q) := by
  obtain ⟨-, -, -, -, -, rfl⟩ := drop_eq_ok.mp h
  simp only [find?, List.find?_filter]
  split
  · rename_i same
    refine List.find?_eq_none.mpr fun t _ => ?_
    rw [sameIgnoringCase_congr ((same_tableName name q).trans same)]
    simp
  · rename_i apart
    refine congrArg (List.find? · d.tables) (funext fun t => ?_)
    cases found : t.name.sameIgnoringCase (tableName q) with
    | false => simp
    | true =>
      have other : t.name.sameIgnoringCase (tableName name) = false := by
        rw [sameIgnoringCase_comm, sameIgnoringCase_congr found, same_tableName]
        simpa using apart
      simp [other]

end Database

end PluginAudit
