import PluginAudit.Proofs.JsonRoundTrip

/-!
Values that are written with one item or member a line. Their text is that of a document, which is
read from it whatever the depth of indentation.
-/

namespace PluginAudit.Json

/-- The numeral of a whole number. -/
def Numeral.ofInt (n : Int) : Numeral :=
  ⟨n < 0, (Nat.toDigits 10 n.natAbs).filterMap digitValue?, [], none⟩

theorem filterMap_digitChars {ds : List Nat} (below : ∀ d ∈ ds, d < 10) :
    (digitChars ds).filterMap digitValue? = ds := by
  induction ds with
  | nil => rfl
  | cons d ds ih =>
    obtain ⟨first, later⟩ := List.forall_mem_cons.mp below
    have value := digitValue?_digitChar first
    rw [digitChars, List.map_cons, List.filterMap_cons, value]
    exact congrArg (d :: ·) (ih later)

/-- A whole number is written by the digits of its numeral. -/
theorem Numeral.ofInt_spelled (n : Int) :
    (Numeral.ofInt n).Spelled (intText n) ∧ decimal (Numeral.ofInt n).whole = n.natAbs := by
  obtain ⟨ds, text, number, below, some, plain⟩ := toDigits_spelled n.natAbs
  have whole : Numeral.ofInt n = ⟨n < 0, ds, [], none⟩ := by
    rw [Numeral.ofInt, text, filterMap_digitChars below]
  rw [whole]
  refine ⟨⟨some, plain, by simpa using below, [], .left, ?_⟩, number⟩
  simp [intText, text, fractionText]

mutual
/-- The document that a value is written as. A double, which is never read again as it was, has
none of its own. -/
def document : Json → Document
  | .null | .num (.float _) => .null
  | .bool b => .bool b
  | .num (.int n) => .num (.ofInt n)
  | .str s => .str (some s)
  | .arr items => .arr (itemDocuments items)
  | .obj members => .obj (memberDocuments members)

def itemDocuments : List Json → List Document
  | [] => []
  | v :: vs => document v :: itemDocuments vs

def memberDocuments : List (String × Json) → List (Option String × Document)
  | [] => []
  | (k, v) :: ms => (some k, document v) :: memberDocuments ms
end

theorem itemDocuments_eq (vs : List Json) : itemDocuments vs = vs.map document := by
  induction vs with
  | nil => rfl
  | cons v vs ih => rw [itemDocuments, ih, List.map_cons]

/-- The names of the members of an object. -/
def names : Json → List String
  | .obj members => members.map Prod.fst
  | _ => []

/-- What is read under a name is what has been written under it. -/
theorem soleMember?_memberDocuments {members : List (String × Json)}
    (distinct : (members.map Prod.fst).Nodup) (key : String) :
    soleMember? key (memberDocuments members) = some ((members.lookup key).map document) := by
  induction members with
  | nil => rfl
  | cons m members ih =>
    obtain ⟨k, v⟩ := m
    obtain ⟨fresh, distinct⟩ := List.nodup_cons.mp distinct
    rw [memberDocuments, soleMember?, ih distinct, List.lookup_cons]
    by_cases same : k = key
    · subst same
      have absent : members.lookup k = none :=
        List.lookup_eq_none_iff.mpr fun m member => bne_iff_ne.mpr fun same =>
          fresh (List.mem_map.mpr ⟨m, member, same.symm⟩)
      simp [absent]
    · simp [same, beq_eq_false_iff_ne.mpr (Ne.symm same)]

mutual
/-- There are no doubles. -/
def Whole : Json → Prop
  | .null | .bool _ | .str _ | .num (.int _) => True
  | .num (.float _) => False
  | .arr items => WholeItems items
  | .obj members => WholeMembers members

def WholeItems : List Json → Prop
  | [] => True
  | v :: vs => v.Whole ∧ WholeItems vs

def WholeMembers : List (String × Json) → Prop
  | [] => True
  | (_, v) :: ms => v.Whole ∧ WholeMembers ms
end

theorem wholeItems_iff {vs : List Json} : WholeItems vs ↔ ∀ v ∈ vs, v.Whole := by
  induction vs with
  | nil => simp [WholeItems]
  | cons v vs ih => rw [WholeItems, ih, List.forall_mem_cons]

theorem newline_blank (depth : Nat) : ∀ c ∈ newline depth, c ∈ whiteSpace := by
  intro c member
  rcases List.mem_cons.mp member with rfl | space
  · simp [whiteSpace]
  · rw [List.eq_of_mem_replicate space]
    simp [whiteSpace]

/-- A closing mark stands on a line of its own. -/
theorem Laid.closedBy {ts : List Token} {text : List Char} {t : Token} {c : Char}
    (laid : Laid ts text) (listed : (t, c) ∈ Token.marks) (depth : Nat) :
    Laid (ts ++ [t]) (text ++ (newline depth ++ [c])) :=
  laid.append ((laid_mark listed).padded (newline_blank depth))

theorem comma_laid {ts : List Token} {text : List Char} (laid : Laid ts text) (depth : Nat) :
    Laid (.comma :: ts) (',' :: (newline depth ++ text)) :=
  (laid_mark (t := .comma) (c := ',') (by simp [Token.marks])).append
    (laid.padded (newline_blank depth))

/-- A member is written as its name, a colon and a space, and its value. -/
theorem member_laid {ts : List Token} {text : List Char} (key : String) (laid : Laid ts text) :
    Laid (.str (some key) :: .colon :: ts) (quoted key ++ ([':', ' '] ++ text)) := by
  have colon := laid_mark (t := .colon) (c := ':') (by simp [Token.marks])
  have space : ∀ c ∈ [' '], c ∈ whiteSpace := by simp [whiteSpace]
  exact (quoted_spelled key).laid.append (colon.append (laid.padded space))

mutual
theorem indented_laid (v : Json) (whole : v.Whole) (depth : Nat) :
    Laid v.document.tokens (indented depth v) := by
  cases v with
  | null => exact (Token.Spelled.word (by simp [Token.words])).laid
  | bool b =>
    cases b
    · exact (Token.Spelled.word (t := .bool false) (by simp [Token.words])).laid
    · exact (Token.Spelled.word (t := .bool true) (by simp [Token.words])).laid
  | num n =>
    cases n with
    | float x => exact absurd whole id
    | int n => exact (Token.Spelled.num (Numeral.ofInt_spelled n).1).laid
  | str s => exact (quoted_spelled s).laid
  | arr items =>
    have opened := laid_mark (t := .openArray) (c := '[') (by simp [Token.marks])
    cases items with
    | nil => exact opened.append (laid_mark (t := .closeArray) (c := ']') (by simp [Token.marks]))
    | cons v vs =>
      have first := (indented_laid v whole.1 (depth + 1)).padded (newline_blank (depth + 1))
      have inside := first.append (indentedItems_laid vs whole.2 (depth + 1))
      have closed := inside.closedBy (t := .closeArray) (c := ']') (by simp [Token.marks]) depth
      have all := opened.append closed
      simpa [document, itemDocuments, Document.tokens, itemTokens, indented] using all
  | obj members =>
    have opened := laid_mark (t := .openObject) (c := '{') (by simp [Token.marks])
    cases members with
    | nil => exact opened.append (laid_mark (t := .closeObject) (c := '}') (by simp [Token.marks]))
    | cons m ms =>
      obtain ⟨k, v⟩ := m
      have first := (member_laid k (indented_laid v whole.1 (depth + 1))).padded
        (newline_blank (depth + 1))
      have inside := first.append (indentedMembers_laid ms whole.2 (depth + 1))
      have closed := inside.closedBy (t := .closeObject) (c := '}') (by simp [Token.marks]) depth
      have all := opened.append closed
      simpa [document, memberDocuments, Document.tokens, memberTokens, indented] using all

theorem indentedItems_laid (vs : List Json) (whole : WholeItems vs) (depth : Nat) :
    Laid (itemTokens (itemDocuments vs)) (indentedItems depth vs) := by
  cases vs with
  | nil => exact .done (by simp [indentedItems])
  | cons v vs =>
    have first := comma_laid (indented_laid v whole.1 depth) depth
    have all := first.append (indentedItems_laid vs whole.2 depth)
    simpa [itemDocuments, itemTokens, indentedItems] using all

theorem indentedMembers_laid (ms : List (String × Json)) (whole : WholeMembers ms) (depth : Nat) :
    Laid (memberTokens (memberDocuments ms)) (indentedMembers depth ms) := by
  cases ms with
  | nil => exact .done (by simp [indentedMembers])
  | cons m ms =>
    obtain ⟨k, v⟩ := m
    have first := comma_laid (member_laid k (indented_laid v whole.1 depth)) depth
    have all := first.append (indentedMembers_laid ms whole.2 depth)
    simpa [memberDocuments, memberTokens, indentedMembers] using all
end

/-- What is written without doubles is read again, one member a line or not. -/
theorem read?_pretty {v : Json} (whole : v.Whole) :
    Document.read? v.pretty.toList = some v.document := by
  rw [pretty, String.toList_ofList]
  exact Document.read?_eq_some_iff.mpr (indented_laid v whole 0)

end PluginAudit.Json
