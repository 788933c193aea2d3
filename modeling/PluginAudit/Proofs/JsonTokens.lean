import Mathlib.Data.List.Chain
import PluginAudit.Proofs.JsonSpelling

/-!
The tokens of a JSON text. Whatever is read has been written as a row of tokens with white space
between them, and every such row is read if a number or a word never follows on another.
-/

namespace PluginAudit.Json

def whiteSpace : List Char := [' ', '\n', '\t', '\r']

namespace Token

def marks : List (Token × Char) :=
  [(.openObject, '{'), (.closeObject, '}'), (.openArray, '['), (.closeArray, ']'), (.comma, ','),
    (.colon, ':')]

def words : List (Token × String) := [(.null, "null"), (.bool true, "true"), (.bool false, "false")]

inductive Spelled : Token → List Char → Prop
  | mark {t : Token} {c : Char} (listed : (t, c) ∈ marks) : Spelled t [c]
  | word {t : Token} {w : String} (listed : (t, w) ∈ words) : Spelled t w.toList
  | num {n : Numeral} {text : List Char} (digits : n.Spelled text) : Spelled (.num n) text
  | str {s : String} {ps : List Piece} {body : List Char} (spelled : BodySpelled ps body)
      (stands : Stands ps s.toList) : Spelled (.str (some s)) ('"' :: (body ++ ['"']))
  | broken {ps : List Piece} {body : List Char} (spelled : BodySpelled ps body)
      (nothing : ∀ cs, ¬Stands ps cs) : Spelled (.str none) ('"' :: (body ++ ['"']))

end Token

/-- A text holds some tokens, with any white space around each of them. -/
inductive Laid : List Token → List Char → Prop
  | done {space : List Char} (blank : ∀ c ∈ space, c ∈ whiteSpace) : Laid [] space
  | token {t : Token} {ts : List Token} {space text rest : List Char}
      (blank : ∀ c ∈ space, c ∈ whiteSpace) (spelled : t.Spelled text) (more : Laid ts rest) :
      Laid (t :: ts) (space ++ (text ++ rest))

variable {t : Token} {ts us : List Token} {text rest space held : List Char} {c : Char} {scan : Scan}

theorem Laid.padded (blank : ∀ c ∈ space, c ∈ whiteSpace) (laid : Laid ts text) :
    Laid ts (space ++ text) := by
  cases laid with
  | done blank' => exact .done (List.forall_mem_append.mpr ⟨blank, blank'⟩)
  | token blank' spelled more =>
    rw [← List.append_assoc]
    exact .token (List.forall_mem_append.mpr ⟨blank, blank'⟩) spelled more

theorem Laid.append (first : Laid ts text) (second : Laid us rest) :
    Laid (ts ++ us) (text ++ rest) := by
  induction first with
  | done blank => exact second.padded blank
  | token blank spelled more ih =>
    rw [List.append_assoc, List.append_assoc]
    exact .token blank spelled ih

theorem Token.Spelled.laid (spelled : t.Spelled text) : Laid [t] text := by
  have laid : Laid [t] ([] ++ (text ++ [])) := .token (by simp) spelled (.done (by simp))
  simpa using laid

section Reading

/-- What has been read of a token that is not complete. -/
inductive Scan.Holds : Scan → List Char → Prop
  | between : Holds .between []
  | word {read : List Char} : Holds (.word read) read.reverse
  | number {read : List Char} : Holds (.number read) read.reverse
  | string {read : List Piece} {body : List Char} (spelled : BodySpelled read.reverse body) :
      Holds (.string read) ('"' :: body)
  | escape {read : List Piece} {body : List Char} (spelled : BodySpelled read.reverse body) :
      Holds (.escape read) ('"' :: (body ++ ['\\']))
  | hex {read : List Piece} {body digits : List Char} {values : List Nat} {left : Nat}
      (spelled : BodySpelled read.reverse body) (hex : List.Forall₂ HexDigit digits values)
      (four : values.length + max left 1 = 4) :
      Holds (.hex read left (hexNumber values)) ('"' :: (body ++ '\\' :: 'u' :: digits))

theorem wordToken?_eq_some_iff {w : String} : Scan.wordToken? w = some t ↔ (t, w) ∈ Token.words := by
  unfold Scan.wordToken? Token.words
  split <;> simp_all [eq_comm]

theorem Scan.finish_laid (holds : scan.Holds held) (finished : scan.finish = some ts) :
    Laid ts held := by
  cases holds with
  | between =>
    cases finished
    exact .done (by simp)
  | word =>
    obtain ⟨t, read, rfl⟩ := Option.map_eq_some_iff.mp finished
    have spelled := Token.Spelled.word (wordToken?_eq_some_iff.mp read)
    rw [String.toList_ofList] at spelled
    exact spelled.laid
  | number =>
    obtain ⟨n, read, rfl⟩ := Option.map_eq_some_iff.mp finished
    exact (Token.Spelled.num (Numeral.spelled_of_ofText? read)).laid
  | string => cases finished
  | escape => cases finished
  | hex => cases finished

/-- What is complete after one more character has been written, and the rest is held. -/
def Scan.Completed (before : List Char) (done : List Token) (next : Scan) : Prop :=
  ∃ written held, before = written ++ held ∧ Laid done written ∧ next.Holds held

theorem Scan.start_completed {next : Scan} (started : Scan.start c = some (ts, next)) :
    Scan.Completed [c] ts next := by
  have marked {t : Token} {d : Char} (listed : (t, d) ∈ Token.marks) :
      Scan.Completed [d] [t] .between := ⟨[d], [], rfl, (Token.Spelled.mark listed).laid, .between⟩
  have blank {d : Char} (listed : d ∈ whiteSpace) : Scan.Completed [d] [] .between :=
    ⟨[d], [], rfl, .done (by simpa using listed), .between⟩
  unfold Scan.start at started
  split at started
  case h_12 =>
    split at started
    · cases started
      exact ⟨[], _, rfl, .done (by simp), .number⟩
    · split at started <;> cases started
      exact ⟨[], _, rfl, .done (by simp), .word⟩
  case h_11 =>
    cases started
    exact ⟨[], _, rfl, .done (by simp), .string .nil⟩
  all_goals cases started
  any_goals exact marked (by simp [Token.marks])
  all_goals exact blank (by simp [whiteSpace])

/-- What becomes of a number or a word at a character that is no part of it. -/
def Scan.ended (scan : Scan) (c : Char) : Option (List Token × Scan) :=
  scan.finish.bind fun ts => (start c).map fun (us, s) => (ts ++ us, s)

theorem Scan.ended_completed {next : Scan} (holds : scan.Holds held)
    (ended : scan.ended c = some (ts, next)) : Scan.Completed (held ++ [c]) ts next := by
  obtain ⟨done, finished, started⟩ := Option.bind_eq_some_iff.mp ended
  obtain ⟨⟨us, s⟩, started, same⟩ := Option.map_eq_some_iff.mp started
  cases same
  obtain ⟨written, held', one, laid, holds'⟩ := start_completed started
  refine ⟨held ++ written, held', ?_, (finish_laid holds finished).append laid, holds'⟩
  rw [one, List.append_assoc]

theorem BodySpelled.concat {ps : List Piece} {p : Piece} {body : List Char}
    (earlier : BodySpelled ps.reverse body) (last : p.Spelled text) :
    BodySpelled (p :: ps).reverse (body ++ text) := by
  rw [List.reverse_cons]
  apply earlier.append
  simpa using BodySpelled.cons last .nil

/-- A string is what its pieces stand for. -/
theorem BodySpelled.str {ps : List Piece} {body : List Char} (spelled : BodySpelled ps body) :
    (Token.str ((joinPieces ps).map .ofList)).Spelled ('"' :: (body ++ ['"'])) := by
  have joins (cs : List Char) : joinPieces ps = some cs ↔ Stands ps cs :=
    joinPieces_eq_some_iff spelled.units
  cases joined : joinPieces ps with
  | none =>
    refine .broken spelled fun cs stands => ?_
    rw [(joins cs).mpr stands] at joined
    cases joined
  | some cs =>
    refine .str spelled ?_
    rw [String.toList_ofList]
    exact (joins cs).mp joined

theorem Scan.step_completed {next : Scan} (holds : scan.Holds held)
    (stepped : scan.step c = some (ts, next)) : Scan.Completed (held ++ [c]) ts next := by
  have goes {held : List Char} {s : Scan} (h : s.Holds held) : Scan.Completed held [] s :=
    ⟨[], held, rfl, .done (by simp), h⟩
  cases holds with
  | between => exact start_completed stepped
  | @word read =>
    rw [step] at stepped
    split at stepped
    · cases stepped
      exact List.reverse_cons ▸ goes .word
    · exact ended_completed .word stepped
  | @number read =>
    rw [step] at stepped
    split at stepped
    · cases stepped
      exact List.reverse_cons ▸ goes .number
    · exact ended_completed .number stepped
  | @string read body spelled =>
    rw [step] at stepped
    split at stepped
    · next quote =>
      cases stepped
      exact ⟨_, [], (List.append_nil _).symm, quote ▸ spelled.str.laid, .between⟩
    · split at stepped
      · next quote backslash =>
        cases stepped
        exact backslash ▸ goes (.escape spelled)
      · split at stepped
        · cases stepped
        · next quote backslash printable =>
          cases stepped
          exact goes (.string (spelled.concat (.plain quote backslash (by omega))))
  | @escape read body spelled =>
    rw [step] at stepped
    split at stepped
    · next unit =>
      cases stepped
      have held : Holds (.hex read 4 (hexNumber [])) ('"' :: (body ++ '\\' :: 'u' :: [])) :=
        .hex spelled .nil rfl
      simpa [unit, hexNumber] using goes held
    · obtain ⟨d, escaped, same⟩ := Option.map_eq_some_iff.mp stepped
      cases same
      have held := Holds.string (spelled.concat (.short (escaped?_eq_some_iff.mp escaped)))
      simpa using goes held
  | @hex read body digits values left spelled hex four =>
    obtain ⟨d, value, same⟩ := Option.map_eq_some_iff.mp stepped
    have more : List.Forall₂ HexDigit (digits ++ [c]) (values ++ [d]) :=
      List.rel_append hex (.cons (hexValue?_eq_some_iff.mp value) .nil)
    have number : hexNumber values * 16 + d = hexNumber (values ++ [d]) := by
      simp [hexNumber]
    have length : (values ++ [d]).length = values.length + 1 := by simp
    simp only [number] at same
    split at same
    · cases same
      have held := Holds.string (spelled.concat (.unit more (by omega)))
      simpa using goes held
    · cases same
      have held : Holds (.hex read (left - 1) _) _ := .hex spelled more (by omega)
      simpa using goes held

theorem Scan.run_laid (holds : scan.Holds held) (ran : scan.run text = some ts) :
    Laid ts (held ++ text) := by
  induction text generalizing scan held ts with
  | nil => simpa using finish_laid holds ran
  | cons c text ih =>
    rw [run] at ran
    split at ran
    · cases ran
    · next done next stepped =>
      obtain ⟨later, ran', rfl⟩ := Option.map_eq_some_iff.mp ran
      obtain ⟨written, held', same, laid, holds'⟩ := step_completed holds stepped
      have whole := laid.append (ih holds' ran')
      rw [← List.append_assoc, ← same] at whole
      simpa using whole

end Reading

section Writing

/-- A number and a word are complete only when something else follows. -/
def Token.IsOpen : Token → Prop
  | .null | .bool _ | .num _ => True
  | _ => False

/-- A text that completes a number or a word in front of it. -/
def Completes (text : List Char) : Prop :=
  ∀ c ∈ text.head?, Scan.isNumeralChar c = false ∧ c.isLower = false

theorem Scan.run_quiet {next : Scan} (stepped : scan.step c = some ([], next)) :
    scan.run (c :: text) = next.run text := by
  rw [run, stepped]
  simp

theorem Scan.run_blank (blank : ∀ c ∈ space, c ∈ whiteSpace) :
    Scan.between.run (space ++ text) = Scan.between.run text := by
  induction space with
  | nil => rfl
  | cons c space ih =>
    have started : Scan.between.step c = some ([], .between) := by
      have member := blank c List.mem_cons_self
      simp only [whiteSpace, List.mem_cons, List.not_mem_nil, or_false] at member
      rcases member with rfl | rfl | rfl | rfl <;> rfl
    rw [List.cons_append, run_quiet started]
    exact ih fun d member => blank d (List.mem_cons_of_mem c member)

theorem Scan.run_ended (ends : ∀ c ∈ text.head?, scan.step c = scan.ended c) :
    scan.run text = scan.finish.bind fun ts => (Scan.between.run text).map (ts ++ ·) := by
  cases text with
  | nil => simp [run, finish]
  | cons c text =>
    rw [run, run, ends c rfl, ended]
    cases scan.finish with
    | none => rfl
    | some ts =>
      simp only [Option.bind_some, step]
      cases start c with
      | none => rfl
      | some next => simp [Option.map_map, Function.comp_def]

/-- A token is gathered from the characters of a kind, up to the first one of another kind. -/
theorem Scan.run_gathered {gather : List Char → Scan} {kind : Char → Bool}
    (steps : ∀ read c, (gather read).step c =
      if kind c then some ([], gather (c :: read)) else (gather read).ended c)
    (all : ∀ c ∈ text, kind c) (stop : ∀ c ∈ rest.head?, kind c = false) (read : List Char) :
    (gather read).run (text ++ rest) = (gather (text.reverse ++ read)).finish.bind fun ts =>
      (Scan.between.run rest).map (ts ++ ·) := by
  induction text generalizing read with
  | nil =>
    refine run_ended fun c head => ?_
    rw [steps, stop c head]
    rfl
  | cons c text ih =>
    have stepped : (gather read).step c = some ([], gather (c :: read)) := by
      rw [steps, all c List.mem_cons_self]
      rfl
    rw [List.cons_append, run_quiet stepped,
      ih fun d member => all d (List.mem_cons_of_mem c member)]
    simp

theorem Scan.run_number (numeral : ∀ c ∈ text, isNumeralChar c) (completes : Completes rest)
    (read : List Char) : (Scan.number read).run (text ++ rest) =
      (Scan.number (text.reverse ++ read)).finish.bind fun ts =>
        (Scan.between.run rest).map (ts ++ ·) :=
  run_gathered (fun _ _ => rfl) numeral (fun c head => (completes c head).1) read

theorem Scan.run_word (lower : ∀ c ∈ text, c.isLower) (completes : Completes rest)
    (read : List Char) : (Scan.word read).run (text ++ rest) =
      (Scan.word (text.reverse ++ read)).finish.bind fun ts =>
        (Scan.between.run rest).map (ts ++ ·) :=
  run_gathered (fun _ _ => rfl) lower (fun c head => (completes c head).2) read

theorem Scan.run_hex {digits : List Char} {values : List Nat} {read : List Piece} {n : Nat}
    (hex : List.Forall₂ HexDigit digits values) (more : values ≠ []) :
    (Scan.hex read values.length n).run (digits ++ rest) =
      (Scan.string (.unit (values.foldl (fun n d => n * 16 + d) n) :: read)).run rest := by
  induction hex generalizing n with
  | nil => exact absurd rfl more
  | @cons c d digits values digit others ih =>
    have value := hexValue?_eq_some_iff.mpr digit
    rw [List.cons_append]
    cases others with
    | nil =>
      apply run_quiet
      simp [step, value]
    | @cons c' d' digits values digit' _ =>
      have stepped : (Scan.hex read (d :: d' :: values).length n).step c =
          some ([], .hex read (d' :: values).length (n * 16 + d)) := by
        simp [step, value]
      rw [run_quiet stepped]
      exact ih (List.cons_ne_nil d' values)

theorem Scan.run_piece {p : Piece} {read : List Piece} (spelled : p.Spelled text) :
    (Scan.string read).run (text ++ rest) = (Scan.string (p :: read)).run rest := by
  cases spelled with
  | @plain c quote backslash printable =>
    apply run_quiet
    rw [step, if_neg quote, if_neg backslash, if_neg (by omega)]
  | @short e c listed =>
    have escaped := escaped?_eq_some_iff.mpr listed
    have other : e ≠ 'u' := by
      rintro rfl
      cases escaped
    have first : (Scan.string read).step '\\' = some ([], .escape read) := rfl
    have second : (Scan.escape read).step e = some ([], .string (.char c :: read)) := by
      rw [step, if_neg other, escaped]
      rfl
    rw [List.cons_append, run_quiet first, List.cons_append, run_quiet second]
    rfl
  | @unit digits values hex four =>
    have first : (Scan.string read).step '\\' = some ([], .escape read) := rfl
    have second : (Scan.escape read).step 'u' = some ([], .hex read 4 0) := rfl
    rw [List.cons_append, run_quiet first, List.cons_append, run_quiet second, ← four]
    exact run_hex hex (by rintro rfl; cases four)

theorem Scan.run_body {ps : List Piece} {body : List Char} {read : List Piece}
    (spelled : BodySpelled ps body) : (Scan.string read).run (body ++ '"' :: rest) =
      (Scan.between.run rest).map
        (.str ((joinPieces (read.reverse ++ ps)).map .ofList) :: ·) := by
  induction spelled generalizing read with
  | nil =>
    rw [List.append_nil]
    rfl
  | cons first more ih =>
    rw [List.append_assoc, run_piece first, ih]
    simp

theorem digitChars_chars {ds : List Nat} (below : ∀ d ∈ ds, d < 10) :
    ∀ c ∈ digitChars ds, Scan.isNumeralChar c := by
  intro c member
  obtain ⟨d, inside, rfl⟩ := List.mem_map.mp member
  simp [Scan.isNumeralChar, isDigit_digitChar (below d inside)]

theorem ExponentSpelled.chars {e : Option (Bool × List Nat)} (spelled : ExponentSpelled e text) :
    ∀ c ∈ text, Scan.isNumeralChar c := by
  cases spelled with
  | left => simp
  | @written mark down sign ds marked signed digits below =>
    refine List.forall_mem_cons.mpr
      ⟨?_, List.forall_mem_append.mpr ⟨?_, digitChars_chars below⟩⟩
    · rcases marked with rfl | rfl <;> decide
    · simp only [List.mem_cons, Prod.mk.injEq, List.not_mem_nil, or_false] at signed
      rcases signed with ⟨-, rfl⟩ | ⟨-, rfl⟩ | ⟨-, rfl⟩ <;> exact List.all_eq_true.mp (by decide)

theorem Numeral.Spelled.chars {n : Numeral} (spelled : n.Spelled text) :
    (∀ c ∈ text, Scan.isNumeralChar c) ∧ ∃ c tail, text = c :: tail ∧ (c.isDigit ∨ c = '-') := by
  obtain ⟨digits, plain, below, e, exponent, rfl⟩ := spelled
  obtain ⟨belowWhole, belowFraction⟩ := List.forall_mem_append.mp below
  have sign : ∀ c ∈ (if n.negative then ['-'] else []), Scan.isNumeralChar c := by
    split <;> exact List.all_eq_true.mp (by decide)
  have fraction : ∀ c ∈ fractionText n.fraction, Scan.isNumeralChar c := by
    cases written : n.fraction with
    | nil => simp [fractionText]
    | cons f fs =>
      exact List.forall_mem_cons.mpr ⟨by decide, digitChars_chars (written ▸ belowFraction)⟩
  refine ⟨?_, ?_⟩
  · simp only [List.forall_mem_append]
    exact ⟨⟨⟨sign, digitChars_chars belowWhole⟩, fraction⟩, exponent.chars⟩
  · obtain ⟨d, ds, written⟩ := List.exists_cons_of_ne_nil digits
    have first : (Nat.digitChar d).isDigit :=
      isDigit_digitChar (belowWhole d (by rw [written]; exact List.mem_cons_self))
    rw [written]
    cases n.negative with
    | false => exact ⟨_, _, rfl, .inl first⟩
    | true => exact ⟨_, _, rfl, .inr rfl⟩

theorem Scan.start_numeral (first : c.isDigit ∨ c = '-') :
    Scan.start c = some ([], .number [c]) := by
  unfold start
  split
  case h_12 =>
    rw [if_pos]
    simpa using first
  all_goals exact absurd first (by decide)

theorem Scan.run_token (spelled : t.Spelled text) (completes : t.IsOpen → Completes rest) :
    Scan.between.run (text ++ rest) = (Scan.between.run rest).map (t :: ·) := by
  cases spelled with
  | mark listed =>
    simp only [Token.marks, List.mem_cons, Prod.mk.injEq, List.not_mem_nil, or_false] at listed
    rcases listed with ⟨rfl, rfl⟩ | ⟨rfl, rfl⟩ | ⟨rfl, rfl⟩ | ⟨rfl, rfl⟩ | ⟨rfl, rfl⟩ | ⟨rfl, rfl⟩ <;>
      rfl
  | @word _ w listed =>
    have shape : t.IsOpen ∧ ∃ c tail, w.toList = c :: tail ∧
        Scan.between.step c = some ([], .word [c]) ∧ ∀ d ∈ tail, d.isLower := by
      simp only [Token.words, List.mem_cons, Prod.mk.injEq, List.not_mem_nil, or_false] at listed
      rcases listed with ⟨rfl, rfl⟩ | ⟨rfl, rfl⟩ | ⟨rfl, rfl⟩ <;>
        exact ⟨trivial, _, _, rfl, rfl, List.all_eq_true.mp (by decide)⟩
    obtain ⟨isOpen, c, tail, written, started, lower⟩ := shape
    have read := wordToken?_eq_some_iff.mpr listed
    rw [← String.ofList_toList (s := w), written] at read
    have finished : (Scan.word (tail.reverse ++ [c])).finish = some [t] := by
      rw [finish, List.reverse_append, List.reverse_reverse, List.reverse_singleton,
        List.singleton_append, read]
      rfl
    rw [written, List.cons_append, run_quiet started, run_word lower (completes isOpen), finished]
    rfl
  | @num n _ spelled =>
    obtain ⟨numeral, c, tail, rfl, first⟩ := spelled.chars
    have tailChars : ∀ d ∈ tail, isNumeralChar d := fun d member =>
      numeral d (List.mem_cons_of_mem c member)
    have started : Scan.between.step c = some ([], .number [c]) := start_numeral first
    have finished : (Scan.number (tail.reverse ++ [c])).finish = some [.num n] := by
      rw [finish, List.reverse_append, List.reverse_reverse, List.reverse_singleton,
        List.singleton_append, spelled.ofText?]
      rfl
    rw [List.cons_append, run_quiet started, run_number tailChars (completes trivial), finished]
    rfl
  | @str s ps body spelled stands =>
    have started : Scan.between.step '"' = some ([], .string []) := rfl
    have joined := (joinPieces_eq_some_iff spelled.units).mpr stands
    rw [List.cons_append, run_quiet started, List.append_assoc, List.singleton_append,
      run_body spelled]
    simp [joined]
  | @broken ps body spelled nothing =>
    have started : Scan.between.step '"' = some ([], .string []) := rfl
    have joined : joinPieces ps = none := by
      by_contra some
      obtain ⟨cs, joined⟩ := Option.ne_none_iff_exists'.mp some
      exact nothing cs ((joinPieces_eq_some_iff spelled.units).mp joined)
    rw [List.cons_append, run_quiet started, List.append_assoc, List.singleton_append,
      run_body spelled]
    simp [joined]

theorem Laid.completes (laid : Laid ts text) (closed : ∀ t ∈ ts.head?, ¬t.IsOpen) :
    Completes text := by
  have blanks : ∀ c ∈ whiteSpace, Scan.isNumeralChar c = false ∧ c.isLower = false := by
    have all : whiteSpace.all fun c => !Scan.isNumeralChar c && !c.isLower := by decide
    simpa using List.all_eq_true.mp all
  intro c head
  cases laid with
  | done blank => exact blanks c (blank c (List.mem_of_mem_head? head))
  | @token t ts space text rest blank spelled more =>
    cases space with
    | cons d space =>
      cases head
      exact blanks _ (blank _ List.mem_cons_self)
    | nil =>
      have notOpen := closed t rfl
      cases spelled with
      | mark listed =>
        simp only [Token.marks, List.mem_cons, Prod.mk.injEq, List.not_mem_nil, or_false] at listed
        cases head
        rcases listed with ⟨-, rfl⟩ | ⟨-, rfl⟩ | ⟨-, rfl⟩ | ⟨-, rfl⟩ | ⟨-, rfl⟩ | ⟨-, rfl⟩ <;> decide
      | word listed =>
        simp only [Token.words, List.mem_cons, Prod.mk.injEq, List.not_mem_nil, or_false] at listed
        rcases listed with ⟨rfl, -⟩ | ⟨rfl, -⟩ | ⟨rfl, -⟩ <;> exact absurd trivial notOpen
      | num spelled => exact absurd trivial notOpen
      | str spelled stands =>
        cases head
        decide
      | broken spelled nothing =>
        cases head
        decide

/-- Neither a number nor a word follows on another. -/
def Parted (ts : List Token) : Prop := ts.IsChain fun t u => t.IsOpen → ¬u.IsOpen

theorem Laid.tokens? (laid : Laid ts text) (parted : Parted ts) : tokens? text = some ts := by
  show Scan.between.run text = some ts
  induction laid with
  | @done space blank =>
    rw [← List.append_nil space, Scan.run_blank blank]
    rfl
  | @token t ts space text rest blank spelled more ih =>
    obtain ⟨next, parted'⟩ := List.isChain_cons.mp parted
    have completes : t.IsOpen → Completes rest := fun isOpen =>
      more.completes fun u head => next u head isOpen
    rw [Scan.run_blank blank, Scan.run_token spelled completes, ih parted']
    rfl

theorem laid_of_tokens? (read : tokens? text = some ts) : Laid ts text :=
  Scan.run_laid .between read

end Writing

end PluginAudit.Json
