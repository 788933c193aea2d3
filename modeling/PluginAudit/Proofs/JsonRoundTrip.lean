import PluginAudit.Json.Writer
import PluginAudit.Proofs.JsonDocuments
import PluginAudit.Proofs.Maps

/-!
Values that are written and read again. A value is read from its text as it was if it has no
doubles, its whole numbers fit 64 bits and it is not nested too deeply.
-/

namespace PluginAudit.Json

section Numbers

theorem decimal_concat (ds : List Nat) (d : Nat) : decimal (ds ++ [d]) = decimal ds * 10 + d := by
  simp [decimal]

theorem toDigits_spelled (n : Nat) :
    ∃ ds, Nat.toDigits 10 n = digitChars ds ∧ decimal ds = n ∧ (∀ d ∈ ds, d < 10) ∧ ds ≠ [] ∧
      ∀ d rest, ds ≠ 0 :: d :: rest := by
  induction n using Nat.strongRecOn with
  | ind n ih =>
    by_cases small : n < 10
    · exact ⟨[n], Nat.toDigits_of_lt_base small, by simp [decimal], by simpa using small, by simp,
        by simp⟩
    · obtain ⟨ds, text, number, below, some, plain⟩ := ih (n / 10) (by omega)
      refine ⟨ds ++ [n % 10], ?_, ?_, ?_, by simp, fun d rest zero => ?_⟩
      · rw [Nat.toDigits_of_base_le (by decide) (by omega), text]
        simp [digitChars]
      · rw [decimal_concat, number]
        omega
      · intro d member
        rcases List.mem_append.mp member with old | last
        · exact below d old
        · rw [List.mem_singleton.mp last]
          omega
      -- A zero in front could only be the one digit of a number that is not zero.
      · rcases ds with - | ⟨first, - | ⟨second, more⟩⟩
        · exact some rfl
        · cases zero
          have none : n / 10 = 0 := number.symm
          omega
        · cases zero
          exact plain _ _ rfl

theorem value?_negative {ds : List Nat} (positive : 0 < decimal ds)
    (small : decimal ds ≤ 0x8000000000000000) :
    Numeral.value? ⟨true, ds, [], none⟩ = some (.int (-(decimal ds : Int))) := by
  have filled : fill 0 ds = (decimal ds, []) := fill_of_small (by
    change decimal ds < _
    omega)
  have apart : ¬(decimal ds = 0 || decide (0x8000000000000000 < decimal ds)) = true := by
    simp
    omega
  simp only [Numeral.value?, filled]
  rw [if_neg (by simp), if_neg (by simpa using apart)]

/-- A whole number that fits 64 bits is written as a numeral of the same value. -/
theorem intText_spelled {n : Int} (low : -0x8000000000000000 ≤ n) (high : n < 0x10000000000000000) :
    ∃ numeral : Numeral, numeral.Spelled (intText n) ∧ numeral.value? = some (.int n) := by
  obtain ⟨ds, text, number, below, some, plain⟩ := toDigits_spelled n.natAbs
  refine ⟨⟨n < 0, ds, [], none⟩, ⟨some, plain, by simpa using below, [], .left, ?_⟩, ?_⟩
  · simp [intText, text, fractionText]
  · by_cases negative : n < 0
    · simp only [negative, decide_true]
      rw [value?_negative (by omega) (by omega), number]
      congr 2
      omega
    · simp only [negative, decide_false]
      rw [value?_digits (by omega), number]
      congr 2
      omega

end Numbers

section Strings

theorem hexDigit_digitChar : ∀ d < 16, HexDigit (Nat.digitChar d) d := by
  unfold HexDigit
  decide

/-- A character is written as itself, behind a backslash or, if it is a control, by its number. -/
theorem escapeChar_spelled (c : Char) :
    ∃ p : Piece, p.Spelled (escapeChar c) ∧ (p = .char c ∨ p = .unit c.toNat ∧ c.toNat < 0x20) := by
  unfold escapeChar
  split
  case h_8 quote backslash _ _ _ _ _ =>
    split
    · next control =>
      have units : hexNumber [0, 0, c.toNat / 16, c.toNat % 16] = c.toNat := by
        simp only [hexNumber, List.foldl_cons, List.foldl_nil]
        omega
      have zero : HexDigit '0' 0 := .inl ⟨by decide, rfl⟩
      have spelled : (Piece.unit (hexNumber [0, 0, c.toNat / 16, c.toNat % 16])).Spelled _ :=
        .unit (.cons zero (.cons zero (.cons (hexDigit_digitChar _ (by omega))
          (.cons (hexDigit_digitChar _ (by omega)) .nil)))) rfl
      exact ⟨_, spelled, .inr ⟨congrArg Piece.unit units, control⟩⟩
    · next seen => exact ⟨.char c, .plain quote backslash (by omega), .inl rfl⟩
  all_goals exact ⟨.char _, .short (by decide), .inl rfl⟩

theorem quoted_spelled (s : String) : (Token.str (some s)).Spelled (quoted s) := by
  have body : ∀ cs : List Char, ∃ ps, BodySpelled ps (cs.flatMap escapeChar) ∧ Stands ps cs := by
    intro cs
    induction cs with
    | nil => exact ⟨[], .nil, .nil⟩
    | cons c cs ih =>
      obtain ⟨ps, spelled, stands⟩ := ih
      obtain ⟨p, first, rfl | ⟨rfl, control⟩⟩ := escapeChar_spelled c
      · exact ⟨_, .cons first spelled, .char stands⟩
      · exact ⟨_, .cons first spelled, .unit (by omega) stands⟩
  obtain ⟨ps, spelled, stands⟩ := body s.toList
  exact .str spelled stands

end Strings

section Values

mutual
/-- Whole numbers fit 64 bits, with or without a sign, there are no doubles, and the members of an
object are in their order. -/
def Exact : Json → Prop
  | .null | .bool _ | .str _ => True
  | .num (.int n) => -0x8000000000000000 ≤ n ∧ n < 0x10000000000000000
  | .num (.float _) => False
  | .arr items => ExactItems items
  | .obj members => Entries.Ascending members ∧ ExactMembers members

def ExactItems : List Json → Prop
  | [] => True
  | v :: vs => v.Exact ∧ ExactItems vs

def ExactMembers : List (String × Json) → Prop
  | [] => True
  | (_, v) :: ms => v.Exact ∧ ExactMembers ms
end

mutual
/-- To be the same value as one without doubles is to be equal to it. -/
theorem eq_of_same {a b : Json} (exact : b.Exact) (alike : a.same b = true) : a = b := by
  cases b with
  | null => cases a with
    | null => rfl
    | _ => simp [same] at alike
  | bool y => cases a with
    | bool x => exact congrArg bool (beq_iff_eq.mp (by simpa only [same] using alike))
    | _ => simp [same] at alike
  | num y => cases a with
    | num x => cases y with
      | float y => exact absurd exact id
      | int y => cases x with
        | int x =>
          have equal : x = y := beq_iff_eq.mp (by simpa only [same, Number.same] using alike)
          rw [equal]
        | float x => simp [same, Number.same] at alike
    | _ => simp [same] at alike
  | str y => cases a with
    | str x => exact congrArg str (beq_iff_eq.mp (by simpa only [same] using alike))
    | _ => simp [same] at alike
  | arr ys => cases a with
    | arr xs => exact congrArg arr (eq_of_sameItems exact (by simpa only [same] using alike))
    | _ => simp [same] at alike
  | obj ys => cases a with
    | obj xs => exact congrArg obj (eq_of_sameMembers exact.2 (by simpa only [same] using alike))
    | _ => simp [same] at alike

theorem eq_of_sameItems {as bs : List Json} (exact : ExactItems bs)
    (alike : sameItems as bs = true) : as = bs := by
  cases bs with
  | nil => cases as with
    | nil => rfl
    | cons a as => simp [sameItems] at alike
  | cons b bs => cases as with
    | nil => simp [sameItems] at alike
    | cons a as =>
      rw [sameItems, Bool.and_eq_true] at alike
      rw [eq_of_same exact.1 alike.1, eq_of_sameItems exact.2 alike.2]

theorem eq_of_sameMembers {as bs : List (String × Json)} (exact : ExactMembers bs)
    (alike : sameMembers as bs = true) : as = bs := by
  cases bs with
  | nil => cases as with
    | nil => rfl
    | cons a as => simp [sameMembers] at alike
  | cons b bs => cases as with
    | nil => simp [sameMembers] at alike
    | cons a as =>
      rw [sameMembers, Bool.and_eq_true, Bool.and_eq_true, beq_iff_eq] at alike
      obtain ⟨⟨keys, values⟩, others⟩ := alike
      rw [Prod.ext keys (eq_of_same exact.1 values), eq_of_sameMembers exact.2 others]
end

theorem eq_of_sameOption {a b : Option Json} (exact : ∀ v ∈ b, v.Exact)
    (alike : sameOption a b = true) : a = b := by
  cases b with
  | none => cases a with
    | none => rfl
    | some x => cases alike
  | some y => cases a with
    | none => cases alike
    | some x => rw [eq_of_same (exact y rfl) alike]

mutual
/-- The levels of arrays and objects, one inside another. -/
def depth : Json → Nat
  | .arr items => depthOfItems items + 1
  | .obj members => depthOfMembers members + 1
  | _ => 0

def depthOfItems : List Json → Nat
  | [] => 0
  | v :: vs => max v.depth (depthOfItems vs)

def depthOfMembers : List (String × Json) → Nat
  | [] => 0
  | (_, v) :: ms => max v.depth (depthOfMembers ms)
end

theorem laid_mark {t : Token} {c : Char} (listed : (t, c) ∈ Token.marks) : Laid [t] [c] :=
  (Token.Spelled.mark listed).laid

/-- The items with a comma in front of each, as in `itemTokens`. -/
def commaItems (vs : List Json) : List Char := vs.flatMap fun v => ',' :: v.text

def commaMembers (ms : List (String × Json)) : List Char :=
  ms.flatMap fun m => ',' :: (quoted m.1 ++ ':' :: m.2.text)

theorem itemsText_eq (vs : List Json) : itemsText vs = (commaItems vs).tail := by
  have cons (vs : List Json) : ∀ v, itemsText (v :: vs) = v.text ++ commaItems vs := by
    induction vs with
    | nil => exact fun v => (List.append_nil _).symm
    | cons w vs ih =>
      intro v
      rw [itemsText, ih w]
      rfl
  cases vs with
  | nil => rfl
  | cons v vs => exact cons vs v

theorem membersText_eq (ms : List (String × Json)) :
    membersText ms = (commaMembers ms).tail := by
  have cons (ms : List (String × Json)) :
      ∀ k v, membersText ((k, v) :: ms) = quoted k ++ ':' :: (v.text ++ commaMembers ms) := by
    induction ms with
    | nil => simp [membersText, commaMembers]
    | cons m ms ih =>
      intro k v
      obtain ⟨l, w⟩ := m
      rw [membersText, ih l w]
      simp [commaMembers]
  cases ms with
  | nil => rfl
  | cons m ms =>
    obtain ⟨k, v⟩ := m
    simpa [commaMembers] using cons ms k v

mutual
/-- The document that a value is written as. -/
theorem text_laid (v : Json) (exact : v.Exact) :
    ∃ d : Document, Laid d.tokens v.text ∧ ∀ room, v.depth < room → d.value? room = some v := by
  cases v with
  | null => exact ⟨.null, (Token.Spelled.word (by simp [Token.words])).laid, fun _ _ => rfl⟩
  | bool b =>
    refine ⟨.bool b, ?_, fun _ _ => rfl⟩
    cases b
    · exact (Token.Spelled.word (t := .bool false) (by simp [Token.words])).laid
    · exact (Token.Spelled.word (t := .bool true) (by simp [Token.words])).laid
  | num n =>
    cases n with
    | float x => exact absurd exact id
    | int n =>
      obtain ⟨numeral, spelled, value⟩ := intText_spelled exact.1 exact.2
      refine ⟨.num numeral, (Token.Spelled.num spelled).laid, fun room _ => ?_⟩
      simp [Document.value?, value]
  | str s => exact ⟨.str (some s), (quoted_spelled s).laid, fun _ _ => rfl⟩
  | arr items =>
    obtain ⟨ds, -, laid, values⟩ := commaItems_laid items exact
    rw [← itemsText_eq] at laid
    refine ⟨.arr ds, ?_, fun room deep => ?_⟩
    · have closed := laid.append (laid_mark (t := .closeArray) (c := ']') (by simp [Token.marks]))
      exact (laid_mark (t := .openArray) (c := '[') (by simp [Token.marks])).append closed
    · rw [depth] at deep
      rw [Document.value?, if_neg (by omega), values _ (by omega)]
      rfl
  | obj members =>
    obtain ⟨ms, -, laid, values⟩ := commaMembers_laid members exact.2
    rw [← membersText_eq] at laid
    refine ⟨.obj ms, ?_, fun room deep => ?_⟩
    · have closed := laid.append (laid_mark (t := .closeObject) (c := '}') (by simp [Token.marks]))
      exact (laid_mark (t := .openObject) (c := '{') (by simp [Token.marks])).append closed
    · rw [depth] at deep
      rw [Document.value?, if_neg (by omega), values _ (by omega), Option.map_some, object,
        Entries.Ascending.ofList_eq_self exact.1]

theorem commaItems_laid (vs : List Json) (exact : ExactItems vs) :
    ∃ ds, Laid (itemTokens ds) (commaItems vs) ∧
      Laid (itemTokens ds).tail (commaItems vs).tail ∧
      ∀ room, depthOfItems vs < room → itemValues? room ds = some vs := by
  cases vs with
  | nil => exact ⟨[], .done (by simp [commaItems]), .done (by simp [commaItems]), fun _ _ => rfl⟩
  | cons v vs =>
    obtain ⟨d, first, value⟩ := text_laid v exact.1
    obtain ⟨ds, later, -, values⟩ := commaItems_laid vs exact.2
    have inside := first.append later
    have all := (laid_mark (t := .comma) (c := ',') (by simp [Token.marks])).append inside
    refine ⟨d :: ds, all, inside, fun room deep => ?_⟩
    rw [depthOfItems] at deep
    simp only [itemValues?, value room (by omega), values room (by omega)]

theorem commaMembers_laid (ms : List (String × Json)) (exact : ExactMembers ms) :
    ∃ ds, Laid (memberTokens ds) (commaMembers ms) ∧
      Laid (memberTokens ds).tail (commaMembers ms).tail ∧
      ∀ room, depthOfMembers ms < room → memberValues? room ds = some ms := by
  cases ms with
  | nil =>
    exact ⟨[], .done (by simp [commaMembers]), .done (by simp [commaMembers]), fun _ _ => rfl⟩
  | cons m ms =>
    obtain ⟨k, v⟩ := m
    obtain ⟨d, first, value⟩ := text_laid v exact.1
    obtain ⟨ds, later, -, values⟩ := commaMembers_laid ms exact.2
    have colon := laid_mark (t := .colon) (c := ':') (by simp [Token.marks])
    have inside := (quoted_spelled k).laid.append (colon.append (first.append later))
    have all := (laid_mark (t := .comma) (c := ',') (by simp [Token.marks])).append inside
    refine ⟨(some k, d) :: ds, ?_, ?_, fun room deep => ?_⟩
    · simpa [memberTokens, commaMembers] using all
    · simpa [memberTokens, commaMembers] using inside
    · rw [depthOfMembers] at deep
      simp only [memberValues?, value room (by omega), values room (by omega)]
end

/-- A value without doubles is read from its text as it was. -/
theorem read?_compact {v : Json} (exact : v.Exact) (shallow : v.depth < nestingLimit) :
    read? v.compact = some v := by
  obtain ⟨d, laid, value⟩ := text_laid v exact
  have document : Document.read? v.text = some d := Document.read?_eq_some_iff.mpr laid
  rw [read?, compact, String.toList_ofList, document, Option.bind_some]
  exact value _ shallow

theorem depthOfItems_lt_iff {vs : List Json} {room : Nat} (positive : 0 < room) :
    depthOfItems vs < room ↔ ∀ v ∈ vs, v.depth < room := by
  induction vs with
  | nil => simpa [depthOfItems] using positive
  | cons v vs ih => rw [depthOfItems, Nat.max_lt, ih, List.forall_mem_cons]

theorem depthOfMembers_lt_iff {ms : List (String × Json)} {room : Nat} (positive : 0 < room) :
    depthOfMembers ms < room ↔ ∀ m ∈ ms, m.2.depth < room := by
  induction ms with
  | nil => simpa [depthOfMembers] using positive
  | cons m ms ih => rw [depthOfMembers, Nat.max_lt, ih, List.forall_mem_cons]

mutual
/-- No value is read that is nested more deeply than there is room. -/
theorem depth_of_value? (d : Document) {room : Nat} (positive : 0 < room) {v : Json}
    (value : d.value? room = some v) : v.depth < room := by
  cases d with
  | null =>
    cases value
    exact positive
  | bool b =>
    cases value
    exact positive
  | num n =>
    obtain ⟨x, -, rfl⟩ := Option.map_eq_some_iff.mp value
    exact positive
  | str s =>
    obtain ⟨x, -, rfl⟩ := Option.map_eq_some_iff.mp value
    exact positive
  | arr items =>
    rw [Document.value?] at value
    split at value
    · cases value
    · obtain ⟨vs, values, rfl⟩ := Option.map_eq_some_iff.mp value
      have inside := (depthOfItems_lt_iff (by omega)).mpr
        (depth_of_itemValues? items (by omega) values)
      rw [depth]
      omega
  | obj members =>
    rw [Document.value?] at value
    split at value
    · cases value
    · obtain ⟨ms, values, rfl⟩ := Option.map_eq_some_iff.mp value
      have all := depth_of_memberValues? members (by omega) values
      -- Of members with one key only the last is kept.
      have inside := (depthOfMembers_lt_iff (by omega)).mpr
        fun m member => all m (Entries.mem_ofList member)
      rw [object, depth]
      omega

theorem depth_of_itemValues? (ds : List Document) {room : Nat} (positive : 0 < room)
    {vs : List Json} (values : itemValues? room ds = some vs) : ∀ v ∈ vs, v.depth < room := by
  cases ds with
  | nil =>
    cases values
    simp
  | cons d ds =>
    rw [itemValues?] at values
    split at values
    · rename_i v vs first later
      cases values
      exact List.forall_mem_cons.mpr ⟨depth_of_value? d positive first,
        depth_of_itemValues? ds positive later⟩
    · cases values

theorem depth_of_memberValues? (ds : List (Option String × Document)) {room : Nat}
    (positive : 0 < room) {ms : List (String × Json)} (values : memberValues? room ds = some ms) :
    ∀ m ∈ ms, m.2.depth < room := by
  cases ds with
  | nil =>
    cases values
    simp
  | cons d ds =>
    obtain ⟨key, d⟩ := d
    unfold memberValues? at values
    split at values
    · rename_i k v ms first later
      cases values
      exact List.forall_mem_cons.mpr ⟨depth_of_value? d positive first,
        depth_of_memberValues? ds positive later⟩
    · cases values
end

/-- What is nested too deeply is not read again. -/
theorem read?_compact_iff {v : Json} (exact : v.Exact) :
    read? v.compact = some v ↔ v.depth < nestingLimit := by
  refine ⟨fun again => ?_, read?_compact exact⟩
  obtain ⟨d, -, value⟩ := Option.bind_eq_some_iff.mp again
  exact depth_of_value? d (by decide) value

end Values

end PluginAudit.Json
