import Mathlib.Algebra.Group.Nat.Defs
import Mathlib.Data.List.Forall2
import PluginAudit.Json.Token
import PluginAudit.Proofs.TextLines

/-!
How the tokens of a JSON text may be written: numbers by their digits, and strings by characters,
short escapes and UTF-16 units. The readers of both are exact.
-/

namespace PluginAudit.Json

open Text (isDigit_iff toNat_ofNat)

section Numerals

def digitChars (ds : List Nat) : List Char := ds.map Nat.digitChar

variable {c : Char} {d : Nat} {ds : List Nat} {text rest : List Char}

theorem isDigit_digitChar (below : d < 10) : (Nat.digitChar d).isDigit := by
  rw [isDigit_iff, Nat.toNat_digitChar_of_lt_ten below]
  omega

theorem digitValue?_digitChar (below : d < 10) : digitValue? (Nat.digitChar d) = some d := by
  rw [digitValue?, if_pos (isDigit_digitChar below), Nat.toNat_digitChar_of_lt_ten below]
  congr 1
  omega

theorem of_digitValue? (value : digitValue? c = some d) : d < 10 ∧ c = Nat.digitChar d := by
  unfold digitValue? at value
  split at value
  · next digit =>
    obtain ⟨low, high⟩ := (isDigit_iff c).mp digit
    cases value
    have below : c.toNat - 48 < 10 := by omega
    refine ⟨below, Char.toNat_inj.mp ?_⟩
    rw [Nat.toNat_digitChar_of_lt_ten below]
    omega
  · cases value

theorem takeDigits_append (below : ∀ d ∈ ds, d < 10) (stop : ∀ c ∈ rest.head?, ¬c.isDigit) :
    takeDigits (digitChars ds ++ rest) = (ds, rest) := by
  induction ds with
  | nil =>
    cases rest with
    | nil => rfl
    | cons c more =>
      have other : digitValue? c = none := if_neg (stop c rfl)
      simp only [digitChars, List.map_nil, List.nil_append, takeDigits, other]
  | cons d ds ih =>
    have value := digitValue?_digitChar (below d List.mem_cons_self)
    have later := ih fun e member => below e (List.mem_cons_of_mem d member)
    simp only [digitChars, List.map_cons, List.cons_append, takeDigits, value] at later ⊢
    rw [later]

theorem takeDigits_spec (text : List Char) :
    text = digitChars (takeDigits text).1 ++ (takeDigits text).2 ∧
      ∀ d ∈ (takeDigits text).1, d < 10 := by
  induction text with
  | nil => exact ⟨rfl, by simp [takeDigits]⟩
  | cons c text ih =>
    rw [takeDigits]
    cases value : digitValue? c with
    | none => exact ⟨rfl, by simp⟩
    | some d =>
      obtain ⟨below, rfl⟩ := of_digitValue? value
      exact ⟨congrArg (Nat.digitChar d :: ·) ih.1, List.forall_mem_cons.mpr ⟨below, ih.2⟩⟩

inductive ExponentSpelled : Option (Bool × List Nat) → List Char → Prop
  | left : ExponentSpelled none []
  | written {mark : Char} {down : Bool} {sign : List Char} {ds : List Nat}
      (marked : mark = 'e' ∨ mark = 'E')
      (signed : (down, sign) ∈ [(false, []), (false, ['+']), (true, ['-'])]) (digits : ds ≠ [])
      (below : ∀ d ∈ ds, d < 10) :
      ExponentSpelled (some (down, ds)) (mark :: (sign ++ digitChars ds))

def fractionText : List Nat → List Char
  | [] => []
  | d :: ds => '.' :: digitChars (d :: ds)

/-- A number is written with a minus sign or none, by whole digits without a zero in front of
them, and with a fraction and an exponent that may be left out. -/
structure Numeral.Spelled (n : Numeral) (text : List Char) : Prop where
  digits : n.whole ≠ []
  plain : ∀ d ds, n.whole ≠ 0 :: d :: ds
  below : ∀ d ∈ n.whole ++ n.fraction, d < 10
  written : ∃ e, ExponentSpelled n.exponent e ∧
    text = (if n.negative then ['-'] else []) ++ digitChars n.whole ++ fractionText n.fraction ++ e

theorem takeDigits_all (below : ∀ d ∈ ds, d < 10) : takeDigits (digitChars ds) = (ds, []) := by
  simpa using @takeDigits_append ds [] below (by simp)

theorem digitChar_ne (below : d < 10) {c : Char} (other : ¬c.isDigit) : Nat.digitChar d ≠ c := by
  rintro rfl
  exact other (isDigit_digitChar below)

theorem readExponent_eq_some_iff {negative : Bool} {whole fraction : List Nat} {n : Numeral} :
    Numeral.readExponent ⟨negative, whole, fraction, none⟩ text = some n ↔
      ∃ e, ExponentSpelled e text ∧ n = ⟨negative, whole, fraction, e⟩ := by
  constructor
  · intro read
    unfold Numeral.readExponent at read
    split at read
    · cases read
      exact ⟨none, .left, rfl⟩
    · next c r =>
      split at read
      · next marked =>
        split at read
        next down body sign =>
        have signed : ∃ sign, (down, sign) ∈ [(false, []), (false, ['+']), (true, ['-'])] ∧
            r = sign ++ body := by
          split at sign <;> cases sign
          · exact ⟨['+'], by simp, rfl⟩
          · exact ⟨['-'], by simp, rfl⟩
          · exact ⟨[], by simp, rfl⟩
        obtain ⟨sign, signed, rfl⟩ := signed
        obtain ⟨same, below⟩ := takeDigits_spec body
        split at read
        · cases read
        · next ds digits taken =>
          cases read
          rw [taken, List.append_nil] at same
          rw [taken] at below
          rw [same]
          exact ⟨_, .written (by simpa using marked) signed digits below, rfl⟩
        · cases read
      · cases read
  · rintro ⟨e, spelled, rfl⟩
    cases spelled with
    | left => rfl
    | @written mark down sign ds marked signed digits below =>
      have all := takeDigits_all below
      obtain ⟨d, ds, rfl⟩ := List.exists_cons_of_ne_nil digits
      have small := below d List.mem_cons_self
      have plus := digitChar_ne small (show ¬Char.isDigit '+' by decide)
      have minus := digitChar_ne small (show ¬Char.isDigit '-' by decide)
      have marked : (decide (mark = 'e') || decide (mark = 'E')) = true := by simpa using marked
      simp only [List.mem_cons, Prod.mk.injEq, List.not_mem_nil, or_false] at signed
      simp only [Numeral.readExponent]
      rw [if_pos marked]
      rcases signed with ⟨rfl, rfl⟩ | ⟨rfl, rfl⟩ | ⟨rfl, rfl⟩
      · have shape : digitChars (d :: ds) = d.digitChar :: digitChars ds := rfl
        rw [shape] at all ⊢
        simp [plus, minus, all]
      · simp [all]
      · simp [all]

theorem ExponentSpelled.head {e : Option (Bool × List Nat)} (spelled : ExponentSpelled e text) :
    ∀ c ∈ text.head?, c = 'e' ∨ c = 'E' := by
  cases spelled with
  | left => simp
  | written marked => simpa using marked

theorem ExponentSpelled.stop {e : Option (Bool × List Nat)} (spelled : ExponentSpelled e text) :
    ∀ c ∈ text.head?, ¬c.isDigit := by
  intro c head
  rcases spelled.head c head with rfl | rfl <;> decide

theorem Numeral.spelled_of_ofText? {n : Numeral} (read : Numeral.ofText? text = some n) :
    n.Spelled text := by
  unfold Numeral.ofText? at read
  split at read
  next negative body sign =>
  have signed : text = (if negative then ['-'] else []) ++ body := by
    split at sign <;> cases sign <;> rfl
  rw [signed]
  obtain ⟨same, below⟩ := takeDigits_spec body
  split at read
  · cases read
  · cases read
  · next whole r digits plain taken =>
    rw [taken] at same below
    obtain ⟨same', below'⟩ := takeDigits_spec r
    split at read
    · cases read
    · next fraction rest digits' taken' =>
      rw [taken'] at same' below'
      obtain ⟨e, spelled, rfl⟩ := readExponent_eq_some_iff.mp read
      obtain ⟨f, fs, rfl⟩ := List.exists_cons_of_ne_nil digits'
      refine ⟨digits, plain, List.forall_mem_append.mpr ⟨below, below'⟩, rest, spelled, ?_⟩
      rw [same, same']
      simp [fractionText]
  · next whole r digits plain undotted taken =>
    rw [taken] at same below
    obtain ⟨e, spelled, rfl⟩ := readExponent_eq_some_iff.mp read
    refine ⟨digits, plain, by simpa using below, r, spelled, ?_⟩
    rw [same]
    simp [fractionText]

theorem Numeral.Spelled.ofText? {n : Numeral} (spelled : n.Spelled text) :
    Numeral.ofText? text = some n := by
  obtain ⟨negative, whole, fraction, exponent⟩ := n
  obtain ⟨digits, plain, below, e, spelled, rfl⟩ := spelled
  simp only at digits plain below spelled ⊢
  obtain ⟨belowWhole, belowFraction⟩ := List.forall_mem_append.mp below
  have stop : ∀ c ∈ (fractionText fraction ++ e).head?, ¬c.isDigit := by
    cases fraction with
    | nil => exact spelled.stop
    | cons f fs => simp [fractionText]
  have taken := takeDigits_append belowWhole stop
  unfold Numeral.ofText?
  split
  next negative' body sign =>
  have signed : negative' = negative ∧ body = digitChars whole ++ (fractionText fraction ++ e) := by
    obtain ⟨d, ds, rfl⟩ := List.exists_cons_of_ne_nil digits
    have minus := digitChar_ne (belowWhole d List.mem_cons_self) (show ¬Char.isDigit '-' by decide)
    cases negative <;> simp [digitChars, minus] at sign <;> simp [digitChars, ← sign]
  obtain ⟨rfl, rfl⟩ := signed
  rw [taken]
  split
  · next shape => exact absurd (congrArg Prod.fst shape) digits
  · next d ds r shape => exact absurd (congrArg Prod.fst shape) (plain d ds)
  · next whole' r _ _ shape =>
    obtain ⟨rfl, dotted⟩ := Prod.mk.inj shape
    cases fraction with
    | nil =>
      have first := spelled.head '.' (by simp [show e = '.' :: r from dotted])
      exact absurd first (by decide)
    | cons f fs =>
      obtain ⟨-, rfl⟩ := List.cons.inj dotted
      have taken' := takeDigits_append belowFraction spelled.stop
      split
      · next shape' => exact absurd (taken'.symm.trans shape') (by simp)
      · next fraction' rest _ shape' =>
        obtain ⟨rfl, rfl⟩ := Prod.mk.inj (taken'.symm.trans shape')
        exact readExponent_eq_some_iff.mpr ⟨exponent, spelled, rfl⟩
  · next whole' r _ _ undotted shape =>
    obtain ⟨rfl, rfl⟩ := Prod.mk.inj shape
    cases fraction with
    | nil => exact readExponent_eq_some_iff.mpr ⟨exponent, spelled, rfl⟩
    | cons f fs => exact absurd rfl (undotted _)

end Numerals

section Values

variable {numeral : Numeral} {i : Int} {ds : List Nat}

/-- The number of some decimal digits. -/
def decimal (ds : List Nat) : Nat := ds.foldl (fun n d => n * 10 + d) 0

theorem le_foldl_digits (ds : List Nat) (n : Nat) : n ≤ ds.foldl (fun n d => n * 10 + d) n := by
  induction ds generalizing n with
  | nil => exact Nat.le_refl n
  | cons d ds ih =>
    have later := ih (n * 10 + d)
    rw [List.foldl_cons]
    omega

theorem foldl_of_fill {ds : List Nat} {n m : Nat} (filled : fill n ds = (m, [])) :
    m = ds.foldl (fun n d => n * 10 + d) n := by
  induction ds generalizing n with
  | nil =>
    cases filled
    rfl
  | cons d ds ih =>
    rw [fill] at filled
    split at filled
    · exact ih filled
    · cases filled

theorem fill_of_small {ds : List Nat} {n : Nat}
    (small : ds.foldl (fun n d => n * 10 + d) n < 0x10000000000000000) :
    fill n ds = (ds.foldl (fun n d => n * 10 + d) n, []) := by
  induction ds generalizing n with
  | nil => rfl
  | cons d ds ih =>
    rw [List.foldl_cons] at small ⊢
    have first := le_foldl_digits ds (n * 10 + d)
    rw [fill, if_pos (by simp [fits]; omega), ih small]

/-- A number without a sign is whole if it is written by its digits alone. -/
theorem of_value?_int (value : numeral.value? = some (.int i)) (positive : 0 ≤ i) :
    ∃ ds, numeral = ⟨false, ds, [], none⟩ ∧ (decimal ds : Int) = i := by
  obtain ⟨negative, whole, fraction, exponent⟩ := numeral
  simp only [Numeral.value?] at value
  split at value
  · next s filled =>
    have number : s = decimal whole := foldl_of_fill filled
    split at value
    · next sign =>
      obtain rfl : negative = false := by simpa using sign
      cases value
      exact ⟨whole, rfl, by rw [number]⟩
    · split at value
      · cases value
      · next zero =>
        cases value
        have nonzero : s ≠ 0 := fun none => zero (by simp [none])
        omega
  · obtain ⟨x, -, other⟩ := Option.map_eq_some_iff.mp value
    cases other

theorem value?_digits (small : decimal ds < 0x10000000000000000) :
    Numeral.value? ⟨false, ds, [], none⟩ = some (.int (decimal ds)) := by
  have filled : fill 0 ds = (decimal ds, []) := fill_of_small small
  simp only [Numeral.value?, filled]
  rfl

end Values

section Strings

variable {c e : Char} {d : Nat} {ps qs : List Piece} {cs body : List Char}

def HexDigit (c : Char) (d : Nat) : Prop :=
  d < 10 ∧ c.toNat = 48 + d ∨ 10 ≤ d ∧ d < 16 ∧ (c.toNat = 87 + d ∨ c.toNat = 55 + d)

theorem hexValue?_eq_some_iff : Scan.hexValue? c = some d ↔ HexDigit c d := by
  have lower : 'a' ≤ c ∧ c ≤ 'f' ↔ 97 ≤ c.toNat ∧ c.toNat ≤ 102 := Iff.rfl
  have upper : 'A' ≤ c ∧ c ≤ 'F' ↔ 65 ≤ c.toNat ∧ c.toNat ≤ 70 := Iff.rfl
  unfold Scan.hexValue? HexDigit
  simp only [isDigit_iff, Bool.and_eq_true, decide_eq_true_eq, lower, upper]
  split
  · rw [Option.some.injEq]
    omega
  · split
    · rw [Option.some.injEq]
      omega
    · split
      · rw [Option.some.injEq]
        omega
      · simp only [reduceCtorEq, false_iff]
        omega

/-- The characters behind a backslash, and those they stand for. -/
def shortEscapes : List (Char × Char) :=
  [('"', '"'), ('\\', '\\'), ('/', '/'), ('b', '\x08'), ('f', '\x0C'), ('n', '\n'), ('r', '\r'),
    ('t', '\t')]

theorem escaped?_eq_some_iff : Scan.escaped? e = some c ↔ (e, c) ∈ shortEscapes := by
  unfold Scan.escaped? shortEscapes
  split <;> simp_all [eq_comm]

/-- The number of four hexadecimal digits. -/
def hexNumber (values : List Nat) : Nat := values.foldl (fun n d => n * 16 + d) 0

inductive Piece.Spelled : Piece → List Char → Prop
  | plain {c : Char} (quote : c ≠ '"') (backslash : c ≠ '\\') (printable : 0x20 ≤ c.toNat) :
      (Piece.char c).Spelled [c]
  | short {e c : Char} (listed : (e, c) ∈ shortEscapes) : (Piece.char c).Spelled ['\\', e]
  | unit {digits : List Char} {values : List Nat} (hex : List.Forall₂ HexDigit digits values)
      (four : values.length = 4) :
      (Piece.unit (hexNumber values)).Spelled ('\\' :: 'u' :: digits)

inductive BodySpelled : List Piece → List Char → Prop
  | nil : BodySpelled [] []
  | cons {p : Piece} {ps : List Piece} {text body : List Char} (first : p.Spelled text)
      (more : BodySpelled ps body) : BodySpelled (p :: ps) (text ++ body)

/-- A character may stand for itself or as a UTF-16 unit; beyond 16 bits it is a pair of units. -/
inductive Stands : List Piece → List Char → Prop
  | nil : Stands [] []
  | char {c : Char} {ps : List Piece} {cs : List Char} (more : Stands ps cs) :
      Stands (.char c :: ps) (c :: cs)
  | unit {c : Char} {ps : List Piece} {cs : List Char} (small : c.toNat < 0x10000)
      (more : Stands ps cs) : Stands (.unit c.toNat :: ps) (c :: cs)
  | pair {c : Char} {h l : Nat} {ps : List Piece} {cs : List Char} (high : h < 0x400)
      (low : l < 0x400) (value : c.toNat = 0x10000 + h * 0x400 + l) (more : Stands ps cs) :
      Stands (.unit (0xD800 + h) :: .unit (0xDC00 + l) :: ps) (c :: cs)

theorem BodySpelled.append {body' : List Char} (first : BodySpelled ps body)
    (second : BodySpelled qs body') : BodySpelled (ps ++ qs) (body ++ body') := by
  induction first with
  | nil => exact second
  | cons piece more ih =>
    rw [List.append_assoc]
    exact .cons piece ih

theorem HexDigit.lt (digit : HexDigit c d) : d < 16 := by
  unfold HexDigit at digit
  omega

theorem foldl_hex_lt {digits : List Char} {values : List Nat}
    (hex : List.Forall₂ HexDigit digits values) (n : Nat) :
    values.foldl (fun n d => n * 16 + d) n < (n + 1) * 16 ^ values.length := by
  induction hex generalizing n with
  | nil => simp
  | @cons c d digits values digit _ ih =>
    have small := digit.lt
    rw [List.foldl_cons, List.length_cons, Nat.pow_succ']
    calc _ < (n * 16 + d + 1) * 16 ^ values.length := ih _
      _ ≤ (n + 1) * 16 * 16 ^ values.length := Nat.mul_le_mul_right _ (by omega)
      _ = (n + 1) * (16 * 16 ^ values.length) := Nat.mul_assoc ..

theorem BodySpelled.units (spelled : BodySpelled ps body) :
    ∀ n, .unit n ∈ ps → n < 0x10000 := by
  intro n member
  induction spelled with
  | nil => cases member
  | cons first more ih =>
    rcases List.mem_cons.mp member with rfl | later
    · cases first with
      | unit hex four => simpa [hexNumber, four] using foldl_hex_lt hex 0
    · exact ih later

def IsSurrogate (n : Nat) : Prop := 0xD800 ≤ n ∧ n < 0xE000

theorem isSurrogate_iff (n : Nat) : IsSurrogate n ↔ isHighUnit n ∨ isLowUnit n := by
  simp only [IsSurrogate, isHighUnit, isLowUnit, Bool.and_eq_true, decide_eq_true_eq]
  omega

theorem joinPieces_unit {n : Nat} (whole : ¬IsSurrogate n) :
    joinPieces (.unit n :: ps) = (joinPieces ps).map (Char.ofNat n :: ·) := by
  rw [isSurrogate_iff, not_or, Bool.not_eq_true, Bool.not_eq_true] at whole
  cases ps with
  | nil => simp [joinPieces, whole]
  | cons p rest => cases p <;> simp [joinPieces, whole]

theorem not_isSurrogate (c : Char) : ¬IsSurrogate c.toNat := by
  have valid : c.toNat.isValidChar := c.valid
  unfold IsSurrogate
  unfold Nat.isValidChar at valid
  omega

theorem Stands.ofNat {n : Nat} (small : n < 0x10000) (whole : ¬IsSurrogate n)
    (more : Stands ps cs) : Stands (.unit n :: ps) (Char.ofNat n :: cs) := by
  have valid : n.isValidChar := by
    unfold IsSurrogate at whole
    unfold Nat.isValidChar
    omega
  have stands : Stands (.unit (Char.ofNat n).toNat :: ps) (Char.ofNat n :: cs) :=
    .unit (by rw [toNat_ofNat valid]; exact small) more
  rwa [toNat_ofNat valid] at stands

theorem Stands.surrogates {h l : Nat} (high : isHighUnit h) (low : isLowUnit l)
    (more : Stands ps cs) : Stands (.unit h :: .unit l :: ps)
      (Char.ofNat (0x10000 + (h - 0xD800) * 0x400 + (l - 0xDC00)) :: cs) := by
  simp only [isHighUnit, isLowUnit, Bool.and_eq_true, decide_eq_true_eq] at high low
  have valid : (0x10000 + (h - 0xD800) * 0x400 + (l - 0xDC00)).isValidChar := by
    unfold Nat.isValidChar
    omega
  have stands := more.pair (h := h - 0xD800) (l := l - 0xDC00) (by omega) (by omega)
    (toNat_ofNat valid)
  rwa [show 0xD800 + (h - 0xD800) = h by omega, show 0xDC00 + (l - 0xDC00) = l by omega] at stands

theorem joinPieces_eq_some_iff (units : ∀ n, .unit n ∈ ps → n < 0x10000) :
    joinPieces ps = some cs ↔ Stands ps cs := by
  constructor
  · intro joined
    fun_induction joinPieces ps generalizing cs with
    | case1 =>
      cases joined
      exact .nil
    | case2 c rest ih =>
      obtain ⟨more, joined', rfl⟩ := Option.map_eq_some_iff.mp joined
      exact .char (ih (fun n member => units n (List.mem_cons_of_mem _ member)) joined')
    | case3 h l rest high low ih =>
      obtain ⟨more, joined', rfl⟩ := Option.map_eq_some_iff.mp joined
      refine .surrogates high low (ih (fun n member => units n ?_) joined')
      exact List.mem_cons_of_mem _ (List.mem_cons_of_mem _ member)
    | case4 => cases joined
    | case5 => cases joined
    | case6 h l rest notHigh notLow ih =>
      obtain ⟨more, joined', rfl⟩ := Option.map_eq_some_iff.mp joined
      have whole : ¬IsSurrogate h := fun half =>
        ((isSurrogate_iff h).mp half).elim notHigh notLow
      exact .ofNat (units h List.mem_cons_self) whole
        (ih (fun n member => units n (List.mem_cons_of_mem _ member)) joined')
    | case7 => cases joined
    | case8 n rest _ neither ih =>
      obtain ⟨more, joined', rfl⟩ := Option.map_eq_some_iff.mp joined
      have whole : ¬IsSurrogate n := fun half =>
        neither (Bool.or_eq_true_iff.mpr ((isSurrogate_iff n).mp half))
      exact .ofNat (units n List.mem_cons_self) whole
        (ih (fun n member => units n (List.mem_cons_of_mem _ member)) joined')
  · intro stands
    clear units
    induction stands with
    | nil => rfl
    | char more ih => rw [joinPieces, ih, Option.map_some]
    | @unit c ps cs small more ih =>
      rw [joinPieces_unit (not_isSurrogate c), ih, Option.map_some, Char.ofNat_toNat]
    | @pair c h l ps cs high low value more ih =>
      have first : isHighUnit (0xD800 + h) := by
        simp only [isHighUnit, Bool.and_eq_true, decide_eq_true_eq]
        omega
      have second : isLowUnit (0xDC00 + l) := by
        simp only [isLowUnit, Bool.and_eq_true, decide_eq_true_eq]
        omega
      rw [joinPieces, if_pos first, if_pos second, ih, Option.map_some, Nat.add_sub_cancel_left,
        Nat.add_sub_cancel_left, ← value, Char.ofNat_toNat]

end Strings

end PluginAudit.Json
