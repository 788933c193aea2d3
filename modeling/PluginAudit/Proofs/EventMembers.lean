import Mathlib.Data.List.Permutation
import PluginAudit.Proofs.JsonSpelling
import PluginAudit.Runner.Output

/-!
The members of an event. They may come in any order and among any members of other names; the
reader finds an event in exactly the lists of members that tell it.
-/

namespace PluginAudit

namespace Runner.Event

open Json (Document Numeral soleMember? decimal)

/-- A line number is written by its digits alone, and fits 32 bits. -/
theorem line?_num_eq_some_iff {numeral : Numeral} {n : Nat} :
    line? (some (.num numeral)) = some n ↔
      ∃ ds, numeral = ⟨false, ds, [], none⟩ ∧ decimal ds = n ∧ n < 0x100000000 := by
  constructor
  · intro read
    simp only [line?] at read
    split at read
    · next i value =>
      split at read
      · next range =>
        cases read
        simp only [Bool.and_eq_true, decide_eq_true_eq] at range
        obtain ⟨ds, written, number⟩ := Json.of_value?_int value range.1
        exact ⟨ds, written, by omega, by omega⟩
      · cases read
    · cases read
  · rintro ⟨ds, rfl, rfl, small⟩
    have range : (0 ≤ (decimal ds : Int) && (decimal ds : Int) < 0x100000000) = true := by
      simp only [Bool.and_eq_true, decide_eq_true_eq]
      omega
    simp only [line?, Json.value?_digits (show decimal ds < 0x10000000000000000 by omega), range,
      Int.toNat_natCast, if_true]

section Members

variable {key : String} {members : Members} {d : Document}

/-- The members of one name, in their order. -/
def named (key : String) (members : Members) : Members :=
  members.filter fun m => m.1 = some key

theorem soleMember?_cases (key : String) (whole : ∀ m ∈ members, m.1.isSome) :
    (named key members = [] ∧ soleMember? key members = some none) ∨
      (∃ d, named key members = [(some key, d)] ∧ soleMember? key members = some (some d)) ∨
      2 ≤ (named key members).length ∧ soleMember? key members = none := by
  induction members with
  | nil => exact .inl ⟨rfl, rfl⟩
  | cons m members ih =>
    obtain ⟨first, later⟩ := List.forall_mem_cons.mp whole
    obtain ⟨_ | k, d⟩ := m
    · cases first
    · have ways := ih later
      unfold named at ways ⊢
      rw [soleMember?]
      by_cases same : k = key
      · subst same
        rw [List.filter_cons_of_pos (by simp)]
        rcases ways with ⟨none, sole⟩ | ⟨d', one, sole⟩ | ⟨two, sole⟩
        · exact .inr (.inl ⟨d, by rw [none], by simp [sole]⟩)
        · exact .inr (.inr ⟨by simp [one], by simp [sole]⟩)
        · exact .inr (.inr ⟨by simp; omega, by simp [sole]⟩)
      · rw [List.filter_cons_of_neg (by simpa using same)]
        rcases ways with ⟨none, sole⟩ | ⟨d', one, sole⟩ | ⟨two, sole⟩
        · exact .inl ⟨none, by simp [sole, same]⟩
        · exact .inr (.inl ⟨d', one, by simp [sole, same]⟩)
        · exact .inr (.inr ⟨two, by simp [sole]⟩)

/-- What is read of a member depends on the members of its name alone. -/
theorem sole_bind_iff {α : Type} {read : Option Document → Option α} {v : α}
    (whole : ∀ m ∈ members, m.1.isSome) : (soleMember? key members).bind read = some v ↔
      (named key members = [] ∧ read none = some v) ∨
        ∃ d, named key members = [(some key, d)] ∧ read (some d) = some v := by
  rcases soleMember?_cases key whole with ⟨none, sole⟩ | ⟨d, one, sole⟩ | ⟨two, sole⟩
  · simp [none, sole]
  · simp [one, sole]
  · rw [sole]
    constructor
    · intro h
      cases h
    · rintro (⟨none, -⟩ | ⟨d, one, -⟩)
      · simp [none] at two
      · simp [one] at two

/-- A text under its name. -/
def textMember (key text : String) : Option String × Document := (some key, .str (some text))

theorem text_bind_iff {text : String} (whole : ∀ m ∈ members, m.1.isSome) :
    (soleMember? key members).bind (·.bind text?) = some text ↔
      named key members = [textMember key text] := by
  rw [sole_bind_iff whole]
  constructor
  · rintro (⟨-, nothing⟩ | ⟨d, one, read⟩)
    · cases nothing
    · cases d <;> cases read
      exact one
  · intro one
    exact .inr ⟨_, one, rfl⟩

/-- A path may be left out, and may be null. -/
inductive FileMember : Option Path → Members → Prop
  | left : FileMember none []
  | null : FileMember none [(some "file", .null)]
  | path {p : Path} : FileMember (some p) [textMember "file" p.text]

/-- A line number may be left out if it is zero. -/
inductive LineMember : Nat → Members → Prop
  | left : LineMember 0 []
  | number {ds : List Nat} (small : decimal ds < 0x100000000) :
      LineMember (decimal ds) [(some "line", .num ⟨false, ds, [], none⟩)]

/-- A level is its text, or the only name in an object without a content. -/
inductive LevelMember (level : Diagnostic.Level) : Members → Prop
  | text : LevelMember level [textMember "level" level.text]
  | null : LevelMember level [(some "level", .obj [(some level.text, .null)])]
  | empty : LevelMember level [(some "level", .obj [(some level.text, .obj [])])]

theorem file_bind_iff {file : Option Path} (whole : ∀ m ∈ members, m.1.isSome) :
    (soleMember? "file" members).bind file? = some file ↔
      FileMember file (named "file" members) := by
  rw [sole_bind_iff whole]
  constructor
  · rintro (⟨none, read⟩ | ⟨d, one, read⟩)
    · cases read
      exact none ▸ .left
    · rw [one]
      cases d with
      | null =>
        cases read
        exact .null
      | str s =>
        cases s <;> cases read
        exact .path
      | _ => cases read
  · intro told
    generalize named "file" members = own at told ⊢
    cases told with
    | left => exact .inl ⟨rfl, rfl⟩
    | null => exact .inr ⟨_, rfl, rfl⟩
    | path => exact .inr ⟨_, rfl, rfl⟩

theorem line_bind_iff {line : Nat} (whole : ∀ m ∈ members, m.1.isSome) :
    (soleMember? "line" members).bind line? = some line ↔
      LineMember line (named "line" members) := by
  rw [sole_bind_iff whole]
  constructor
  · rintro (⟨none, read⟩ | ⟨d, one, read⟩)
    · cases read
      exact none ▸ .left
    · rw [one]
      cases d with
      | num numeral =>
        obtain ⟨ds, rfl, rfl, small⟩ := line?_num_eq_some_iff.mp read
        exact .number small
      | _ => cases read
  · intro told
    generalize named "line" members = own at told ⊢
    cases told with
    | left => exact .inl ⟨rfl, rfl⟩
    | number small => exact .inr ⟨_, rfl, line?_num_eq_some_iff.mpr ⟨_, rfl, rfl, small⟩⟩

theorem ofText?_eq_some_iff {text : String} {level : Diagnostic.Level} :
    Diagnostic.Level.ofText? text = some level ↔ text = level.text := by
  constructor
  · intro read
    have found := List.find?_some read
    exact (beq_iff_eq.mp found).symm
  · rintro rfl
    cases level <;> decide

theorem level_bind_iff {level : Diagnostic.Level} (whole : ∀ m ∈ members, m.1.isSome) :
    (soleMember? "level" members).bind (·.bind level?) = some level ↔
      LevelMember level (named "level" members) := by
  rw [sole_bind_iff whole]
  constructor
  · rintro (⟨none, read⟩ | ⟨d, one, read⟩)
    · cases read
    · rw [one]
      simp only [Option.bind_some] at read
      unfold level? at read
      split at read
      · obtain rfl := ofText?_eq_some_iff.mp read
        exact .null
      · obtain rfl := ofText?_eq_some_iff.mp read
        exact .empty
      · cases d with
        | str s =>
          cases s with
          | none => cases read
          | some s =>
            obtain rfl := ofText?_eq_some_iff.mp read
            exact .text
        | _ => cases read
  · intro told
    have read := ofText?_eq_some_iff.mpr (rfl : level.text = level.text)
    generalize named "level" members = own at told ⊢
    cases told <;> exact .inr ⟨_, rfl, read⟩

/-- The names that mean something in an event. -/
def names : Runner.Event → List String
  | .call _ => ["event", "function", "file", "line"]
  | .diagnostic _ => ["event", "level", "message", "file", "line"]

/-- The members of an event, in one order. -/
inductive Own : Runner.Event → Members → Prop
  | call {c : ObservedCall} {file line : Members} (hasFile : FileMember c.file file)
      (hasLine : LineMember c.line line) :
      Own (.call c) ([textMember "event" "call"] ++ ([textMember "function" c.function] ++
        (file ++ line)))
  | diagnostic {d : Diagnostic} {level file line : Members} (hasLevel : LevelMember d.level level)
      (hasFile : FileMember d.file file) (hasLine : LineMember d.line line) :
      Own (.diagnostic d) ([textMember "event" "diagnostic"] ++ (level ++
        ([textMember "message" d.message] ++ (file ++ line))))

/-- The members of an event in any order, and any others among them. -/
def Tells (e : Runner.Event) (members : Members) : Prop :=
  ∃ own extra, Own e own ∧ members.Perm (own ++ extra) ∧ ∀ m ∈ extra, ∀ name ∈ e.names, m.1 ≠ some name

/-- The members of each name, as an event has them. -/
def Fields (members : Members) : Runner.Event → Prop
  | .call c =>
    named "event" members = [textMember "event" "call"] ∧
      named "function" members = [textMember "function" c.function] ∧
      FileMember c.file (named "file" members) ∧ LineMember c.line (named "line" members)
  | .diagnostic d =>
    named "event" members = [textMember "event" "diagnostic"] ∧
      LevelMember d.level (named "level" members) ∧
      named "message" members = [textMember "message" d.message] ∧
      FileMember d.file (named "file" members) ∧ LineMember d.line (named "line" members)

theorem call?_eq {members : Members} :
    call? members = ((soleMember? "function" members).bind (·.bind text?)).bind fun function =>
      ((soleMember? "file" members).bind file?).bind fun file =>
        ((soleMember? "line" members).bind line?).bind fun line =>
          some (.call ⟨function, file, line⟩) := by
  simp only [call?, Option.bind_eq_bind, Option.pure_def, Option.bind_assoc]

theorem diagnostic?_eq {members : Members} :
    diagnostic? members = ((soleMember? "level" members).bind (·.bind level?)).bind fun level =>
      ((soleMember? "message" members).bind (·.bind text?)).bind fun message =>
        ((soleMember? "file" members).bind file?).bind fun file =>
          ((soleMember? "line" members).bind line?).bind fun line =>
            some (.diagnostic ⟨level, message, file, line⟩) := by
  simp only [diagnostic?, Option.bind_eq_bind, Option.pure_def, Option.bind_assoc]

theorem ofMembers?_eq_some_iff_fields {e : Runner.Event} (whole : ∀ m ∈ members, m.1.isSome) :
    ofMembers? members = some e ↔ Fields members e := by
  have kind : (soleMember? "event" members).join.bind text? =
      (soleMember? "event" members).bind (·.bind text?) := by
    cases soleMember? "event" members <;> rfl
  unfold ofMembers?
  rw [kind]
  constructor
  · intro read
    split at read
    · next event =>
      rw [call?_eq] at read
      obtain ⟨function, hasFunction, read⟩ := Option.bind_eq_some_iff.mp read
      obtain ⟨file, hasFile, read⟩ := Option.bind_eq_some_iff.mp read
      obtain ⟨line, hasLine, read⟩ := Option.bind_eq_some_iff.mp read
      cases read
      exact ⟨(text_bind_iff whole).mp event, (text_bind_iff whole).mp hasFunction,
        (file_bind_iff whole).mp hasFile, (line_bind_iff whole).mp hasLine⟩
    · next event =>
      rw [diagnostic?_eq] at read
      obtain ⟨level, hasLevel, read⟩ := Option.bind_eq_some_iff.mp read
      obtain ⟨message, hasMessage, read⟩ := Option.bind_eq_some_iff.mp read
      obtain ⟨file, hasFile, read⟩ := Option.bind_eq_some_iff.mp read
      obtain ⟨line, hasLine, read⟩ := Option.bind_eq_some_iff.mp read
      cases read
      exact ⟨(text_bind_iff whole).mp event, (level_bind_iff whole).mp hasLevel,
        (text_bind_iff whole).mp hasMessage, (file_bind_iff whole).mp hasFile,
        (line_bind_iff whole).mp hasLine⟩
    · cases read
  · intro fields
    cases e with
    | call c =>
      obtain ⟨event, function, file, line⟩ := fields
      rw [(text_bind_iff whole).mpr event]
      show call? members = _
      rw [call?_eq, (text_bind_iff whole).mpr function, Option.bind_some,
        (file_bind_iff whole).mpr file, Option.bind_some, (line_bind_iff whole).mpr line]
      rfl
    | diagnostic d =>
      obtain ⟨event, level, message, file, line⟩ := fields
      rw [(text_bind_iff whole).mpr event]
      show diagnostic? members = _
      rw [diagnostic?_eq, (level_bind_iff whole).mpr level, Option.bind_some,
        (text_bind_iff whole).mpr message, Option.bind_some, (file_bind_iff whole).mpr file,
        Option.bind_some, (line_bind_iff whole).mpr line]
      rfl

theorem named_filter {name : String} (other : name ≠ key) (members : Members) :
    named name (members.filter fun m => !decide (m.1 = some key)) = named name members := by
  unfold named
  rw [List.filter_filter]
  refine List.filter_congr fun m _ => ?_
  by_cases same : m.1 = some name <;> simp [same, other]

/-- Members are those of some names and those of no such name. -/
theorem perm_named {names : List String} (distinct : names.Nodup) (members : Members) :
    members.Perm (names.flatMap (named · members) ++
      members.filter fun m => names.all fun name => !decide (m.1 = some name)) := by
  induction names generalizing members with
  | nil => simp
  | cons key names ih =>
    obtain ⟨fresh, distinct⟩ := List.nodup_cons.mp distinct
    have parts := (List.filter_append_perm (fun m => decide (m.1 = some key)) members).symm
    have rest := ih distinct (members.filter fun m => !decide (m.1 = some key))
    have same : names.flatMap (named · (members.filter fun m => !decide (m.1 = some key))) =
        names.flatMap (named · members) :=
      List.flatMap_congr fun name member => named_filter (by rintro rfl; exact fresh member) members
    rw [same, List.filter_filter] at rest
    have whole := parts.trans (rest.append_left (named key members))
    rw [← List.append_assoc] at whole
    simpa [Bool.and_comm] using whole

theorem named_uniform {own : Members} (uniform : ∀ m ∈ own, m.1 = some key) (name : String) :
    named name own = if key = name then own else [] := by
  unfold named
  split
  · next same =>
    exact List.filter_eq_self.mpr fun m member => by simp [uniform m member, same]
  · next other =>
    exact List.filter_eq_nil_iff.mpr fun m member => by simp [uniform m member, other]

theorem named_append (name : String) (own more : Members) :
    named name (own ++ more) = named name own ++ named name more :=
  List.filter_append ..

theorem FileMember.uniform {file : Option Path} {own : Members} (h : FileMember file own) :
    ∀ m ∈ own, m.1 = some "file" := by
  cases h <;> simp [textMember]

theorem LineMember.uniform {line : Nat} {own : Members} (h : LineMember line own) :
    ∀ m ∈ own, m.1 = some "line" := by
  cases h <;> simp

theorem LevelMember.uniform {level : Diagnostic.Level} {own : Members} (h : LevelMember level own) :
    ∀ m ∈ own, m.1 = some "level" := by
  cases h <;> simp [textMember]

theorem textMember_uniform (key text : String) : ∀ m ∈ [textMember key text], m.1 = some key := by
  simp [textMember]

/-- What an event has of each name is not more than one member. -/
theorem FileMember.perm {file : Option Path} {own own' : Members} (h : FileMember file own)
    (same : own'.Perm own) : FileMember file own' := by
  cases h with
  | left => exact same.eq_nil ▸ .left
  | null => exact List.perm_singleton.mp same ▸ .null
  | path => exact List.perm_singleton.mp same ▸ .path

theorem LineMember.perm {line : Nat} {own own' : Members} (h : LineMember line own)
    (same : own'.Perm own) : LineMember line own' := by
  cases h with
  | left => exact same.eq_nil ▸ .left
  | number small => exact List.perm_singleton.mp same ▸ .number small

theorem LevelMember.perm {level : Diagnostic.Level} {own own' : Members} (h : LevelMember level own)
    (same : own'.Perm own) : LevelMember level own' := by
  cases h with
  | text => exact List.perm_singleton.mp same ▸ .text
  | null => exact List.perm_singleton.mp same ▸ .null
  | empty => exact List.perm_singleton.mp same ▸ .empty

theorem Own.fields {e : Runner.Event} {own : Members} (h : Own e own)
    (same : ∀ name ∈ e.names, (named name members).Perm (named name own)) : Fields members e := by
  cases h with
  | @call c file line hasFile hasLine =>
    simp only [names, List.forall_mem_cons, named_append, named_uniform (textMember_uniform _ _),
      named_uniform hasFile.uniform, named_uniform hasLine.uniform] at same
    obtain ⟨event, function, sameFile, sameLine⟩ := by simpa using same
    exact ⟨event, function, hasFile.perm sameFile, hasLine.perm sameLine⟩
  | @diagnostic d level file line hasLevel hasFile hasLine =>
    simp only [names, List.forall_mem_cons, named_append, named_uniform (textMember_uniform _ _),
      named_uniform hasLevel.uniform, named_uniform hasFile.uniform,
      named_uniform hasLine.uniform] at same
    obtain ⟨event, sameLevel, message, sameFile, sameLine⟩ := by simpa using same
    exact ⟨event, hasLevel.perm sameLevel, message, hasFile.perm sameFile,
      hasLine.perm sameLine⟩

theorem Fields.own {e : Runner.Event} (h : Fields members e) :
    Own e (e.names.flatMap (named · members)) := by
  cases e with
  | call c =>
    obtain ⟨event, function, file, line⟩ := h
    simpa [names, event, function] using Own.call file line
  | diagnostic d =>
    obtain ⟨event, level, message, file, line⟩ := h
    simpa [names, event, message] using Own.diagnostic level file line

theorem names_nodup (e : Runner.Event) : e.names.Nodup := by
  cases e <;> simp [names]

theorem ofMembers?_eq_some_iff {e : Runner.Event} (whole : ∀ m ∈ members, m.1.isSome) :
    ofMembers? members = some e ↔ Tells e members := by
  rw [ofMembers?_eq_some_iff_fields whole]
  constructor
  · intro fields
    refine ⟨_, _, fields.own, perm_named e.names_nodup members, fun m member name inside => ?_⟩
    have other := List.all_eq_true.mp (List.mem_filter.mp member).2 name inside
    simpa using other
  · rintro ⟨own, extra, h, perm, foreign⟩
    refine h.fields fun name member => ?_
    have none : named name extra = [] := 
      List.filter_eq_nil_iff.mpr fun m inside => by simpa using foreign m inside name member
    have filtered : (named name members).Perm (named name (own ++ extra)) := perm.filter _
    rwa [named_append, none, List.append_nil] at filtered

end Members

end Runner.Event

end PluginAudit
