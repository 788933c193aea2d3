import PluginAudit.Proofs.TextLines
import PluginAudit.Proofs.EventMembers
import PluginAudit.Proofs.JsonDocuments

/-!
The lines of a runner's output. A line tells an event if, without the blanks around it, it is the
text of an object with the event's members. Such lines are read, and no others.
-/

namespace PluginAudit

namespace Json

variable {ts : List Token} {text : List Char} {members : List (Option String × Document)}

/-- The last brace of an object has only white space behind it. -/
theorem Laid.closed (laid : Laid (ts ++ [.closeObject]) text) :
    ∃ body space, text = body ++ '}' :: space ∧ ∀ c ∈ space, c ∈ whiteSpace := by
  induction ts generalizing text with
  | nil =>
    cases laid with
    | @token _ _ space brace rest blank spelled more =>
      cases more with
      | done blank' =>
        cases spelled with
        | mark listed =>
          simp only [Token.marks, List.mem_cons, Prod.mk.injEq, reduceCtorEq, false_and, true_and,
            List.not_mem_nil, or_false, false_or] at listed
          exact ⟨space, rest, by rw [listed]; rfl, blank'⟩
        | word listed => simp [Token.words] at listed
  | cons t ts ih =>
    cases laid with
    | @token _ _ space text rest blank spelled more =>
      obtain ⟨body, space', rfl, blank'⟩ := ih more
      exact ⟨space ++ (text ++ body), space', by simp, blank'⟩

theorem tokens_obj (members : List (Option String × Document)) : (Document.obj members).tokens =
    (.openObject :: (memberTokens members).tail) ++ [.closeObject] := by
  rw [Document.tokens, List.cons_append]

/-- The names in an object that has a value are whole. -/
theorem whole_of_values (values : ∀ t ∈ (Document.obj members).tokens, t.HasValue) :
    ∀ m ∈ members, m.1.isSome := by
  have inner : ∀ t ∈ memberTokens members, t.HasValue := by
    refine (values_memberTokens members).mp fun t member => values t ?_
    rw [tokens_obj]
    exact List.mem_append_left _ (List.mem_cons_of_mem _ member)
  clear values
  induction members with
  | nil => simp
  | cons m members ih =>
    obtain ⟨key, d⟩ := m
    rw [memberTokens] at inner
    simp only [List.forall_mem_cons, List.forall_mem_append] at inner
    exact List.forall_mem_cons.mpr ⟨inner.2.1, ih inner.2.2.2.2⟩

end Json

namespace Runner.Event

open Json (Document Laid Token)
open Text (isBlank trim)

variable {e : Runner.Event} {line : List Char}

/-- A line is an event's if, without the blanks around it, it is written as an object with the
event's members: one that is not nested too deeply, and has no number beyond the doubles and no
half of a surrogate pair in it. -/
structure WrittenAs (e : Runner.Event) (line : List Char) (members : Members) : Prop where
  tells : e.Tells members
  laid : ∃ before body after, line = before ++ ('{' :: (body ++ ['}'])) ++ after ∧
    (∀ c ∈ before, isBlank c) ∧ (∀ c ∈ after, isBlank c) ∧
    Laid (Document.obj members).tokens ('{' :: (body ++ ['}']))
  shallow : (Document.obj members).depth < 128
  values : ∀ t ∈ (Document.obj members).tokens, t.HasValue

theorem ofDocument?_eq_some_iff {members : Members} :
    ofDocument? (.obj members) = some e ↔ e.Tells members ∧ (Document.obj members).depth < 128 ∧
      ∀ t ∈ (Document.obj members).tokens, t.HasValue := by
  have holds := @Json.value?_isSome_iff (.obj members) Json.nestingLimit (by decide)
  unfold ofDocument?
  cases value : (Document.obj members).value? Json.nestingLimit with
  | none =>
    rw [value] at holds
    simp only [reduceCtorEq, false_iff]
    rintro ⟨-, held⟩
    cases holds.mpr held
  | some v =>
    rw [value] at holds
    have held := holds.mp rfl
    simp only [ofMembers?_eq_some_iff (Json.whole_of_values held.2)]
    exact ⟨fun tells => ⟨tells, held⟩, And.left⟩

/-- Blanks around the text of an object do not count. -/
theorem ofLine?_object {members : Members} {before body after : List Char}
    (blank : ∀ c ∈ before, isBlank c) (blank' : ∀ c ∈ after, isBlank c)
    (laid : Laid (Document.obj members).tokens ('{' :: (body ++ ['}']))) :
    ofLine? (before ++ ('{' :: (body ++ ['}'])) ++ after) = ofDocument? (.obj members) := by
  have trimmed := Text.trim_padded blank blank' (List.cons_ne_nil _ _)
    (@Text.trim_between body '{' '}' (by decide) (by decide))
  rw [ofLine?, trimmed]
  simp only [Document.read?_eq_some_iff.mpr laid, Option.bind_some]

/-- The text of an object in a line has nothing behind its last brace. -/
theorem laid_trim {members : Members} {rest : List Char} (trimmed : trim line = '{' :: rest)
    (laid : Laid (Document.obj members).tokens ('{' :: rest)) : ∃ body, rest = body ++ ['}'] := by
  obtain ⟨inner, space, written, blank⟩ := (Json.tokens_obj members ▸ laid).closed
  obtain rfl : space = [] := by
    rcases List.eq_nil_or_concat space with rfl | ⟨more, c, rfl⟩
    · rfl
    · have ended : '{' :: rest = (inner ++ '}' :: more) ++ [c] := by simp [written]
      have solid := Text.trim_last line c (by rw [trimmed, ended]; exact List.getLast?_concat)
      have all : ∀ c ∈ Json.whiteSpace, isBlank c = true := List.all_eq_true.mp (by decide)
      rw [all c (blank c (by simp))] at solid
      cases solid
  cases inner with
  | nil => cases written
  | cons c body => exact ⟨body, (List.cons.inj written).2⟩

theorem ofLine?_eq_some_iff : ofLine? line = some e ↔ ∃ members, e.WrittenAs line members := by
  constructor
  · intro read
    unfold ofLine? at read
    split at read
    · next rest trimmed =>
      obtain ⟨d, laid, read⟩ := Option.bind_eq_some_iff.mp read
      rw [Document.read?_eq_some_iff] at laid
      cases d with
      | obj members =>
        obtain ⟨tells, shallow, values⟩ := ofDocument?_eq_some_iff.mp read
        obtain ⟨body, rfl⟩ := laid_trim trimmed laid
        obtain ⟨before, after, same, blank, blank'⟩ := Text.trim_append line
        rw [trimmed] at same
        exact ⟨members, tells, ⟨before, body, after, same, blank, blank', laid⟩, shallow, values⟩
      | _ => cases read
    · cases read
  · rintro ⟨members, tells, ⟨before, body, after, rfl, blank, blank', laid⟩, shallow, values⟩
    rw [ofLine?_object blank blank' laid]
    exact ofDocument?_eq_some_iff.mpr ⟨tells, shallow, values⟩

end Runner.Event

end PluginAudit
