import PluginAudit.Proofs.DecodedLines
import PluginAudit.Proofs.EventLines
import PluginAudit.Proofs.PaddedText

/-!
The events of a whole output. What stands on one line has no bearing on the others, so the events
of the lines are found one after another, and no other bytes can hide, repeat or reorder them.
-/

namespace PluginAudit

deriving instance DecidableEq for ObservedCall, Diagnostic, Runner.Event

namespace Runner.Event

open Json (Document Laid braced)
open Text (Bytes decodeLossy splitAt linesOfParts dropReturn)

theorem ofLine?_dropReturn (part : List Char) : ofLine? (dropReturn part) = ofLine? part := by
  rw [ofLine?, ofLine?, (Text.padded_dropReturn part).trim]

theorem ofParts (parts : List (List Char)) :
    (linesOfParts parts).filterMap ofLine? = parts.filterMap ofLine? := by
  induction parts with
  | nil => rfl
  | cons part rest ih =>
    cases rest with
    | nil =>
      rw [linesOfParts]
      split
      · next blank =>
        rw [List.isEmpty_iff.mp blank]
        rfl
      · rfl
    | cons next rest =>
      rw [linesOfParts, List.filterMap_cons, List.filterMap_cons, ofLine?_dropReturn, ih]

theorem ofOutput_eq (output : Bytes) :
    ofOutput output = (splitAt '\n' (decodeLossy output)).filterMap ofLine? :=
  ofParts _

theorem ofOutput_feed (a b : Bytes) : ofOutput (a ++ 0x0A :: b) = ofOutput a ++ ofOutput b := by
  rw [ofOutput_eq, ofOutput_eq, ofOutput_eq, Text.decodeLossy_feed, Text.splitAt_marked,
    List.filterMap_append]

theorem ofOutput_line {line : Bytes} (feed : 0x0A ∉ line) :
    ofOutput line = (ofLine? (decodeLossy line)).toList := by
  rw [ofOutput_eq, Text.splitAt_line (Text.decodeLossy_line feed)]
  cases read : ofLine? (decodeLossy line) <;> simp [read]

theorem ofOutput_encode {text : List Char} (line : '\n' ∉ text) :
    ofOutput (Text.encode text) = (ofLine? text).toList := by
  rw [ofOutput_eq, Text.decodeLossy_encode, Text.splitAt_line line]
  cases read : ofLine? text <;> simp [read]

/-- A line with the event that it tells, if it tells one. Malformed bytes in it are read as
replacement characters. -/
inductive LineTells : Option Runner.Event → Bytes → Prop
  | event {e : Runner.Event} {line : Bytes} {members : Members}
      (written : e.WrittenAs (decodeLossy line) members) : LineTells (some e) line
  | other {line : Bytes} (nothing : ∀ e members, ¬WrittenAs e (decodeLossy line) members) :
      LineTells none line

theorem lineTells_iff {told : Option Runner.Event} {line : Bytes} :
    LineTells told line ↔ ofLine? (decodeLossy line) = told := by
  constructor
  · rintro (written | nothing)
    · exact ofLine?_eq_some_iff.mpr ⟨_, written⟩
    · refine Option.eq_none_iff_forall_ne_some.mpr fun e read => ?_
      obtain ⟨members, written⟩ := ofLine?_eq_some_iff.mp read
      exact nothing e members written
  · rintro rfl
    cases read : ofLine? (decodeLossy line) with
    | none =>
      refine .other fun e members written => ?_
      rw [ofLine?_eq_some_iff.mpr ⟨members, written⟩] at read
      cases read
    | some e =>
      obtain ⟨members, written⟩ := ofLine?_eq_some_iff.mp read
      exact .event written

theorem ofOutput_lines {told : List (Option Runner.Event)} {lines : List Bytes}
    (tells : List.Forall₂ LineTells told lines) (feeds : ∀ line ∈ lines, 0x0A ∉ line) :
    ofOutput (List.intercalate [0x0A] lines) = told.reduceOption := by
  induction tells with
  | nil => rfl
  | @cons o line told lines first rest ih =>
    obtain ⟨feed, feeds⟩ := List.forall_mem_cons.mp feeds
    have later := ih feeds
    have here : ofOutput line = o.toList := by rw [ofOutput_line feed, lineTells_iff.mp first]
    cases rest with
    | nil =>
      rw [List.intercalate_singleton, here]
      cases o <;> rfl
    | cons second rest =>
      rw [List.intercalate_cons_cons, List.append_assoc, List.singleton_append, ofOutput_feed, later,
        here]
      cases o <;> rfl

/-- The report of an output is that of its lines: the events come in their order, none is lost and
none is told twice, whatever the other lines hold. -/
theorem report_of_lines :
    (∀ (told : List (Option Runner.Event)) (lines : List Bytes) (durationMs : Int),
      List.Forall₂ LineTells told lines → (∀ line ∈ lines, 0x0A ∉ line) →
      let report := Load.Report.ofEvents (ofOutput (List.intercalate [0x0A] lines)) durationMs
      report.calls = told.reduceOption.filterMap asCall? ∧
        report.diagnostics = told.reduceOption.filterMap asDiagnostic?) ∧
    ∀ (a b : Bytes) (durationMs : Int),
      let report (output : Bytes) := Load.Report.ofEvents (ofOutput output) durationMs
      (report (a ++ 0x0A :: b)).calls = (report a).calls ++ (report b).calls ∧
        (report (a ++ 0x0A :: b)).diagnostics = (report a).diagnostics ++ (report b).diagnostics := by
  constructor
  · intro told lines durationMs tells feeds
    show _ ∧ _
    rw [ofOutput_lines tells feeds]
    exact ⟨rfl, rfl⟩
  · intro a b durationMs
    simp only [Load.Report.ofEvents, ofOutput_feed, List.filterMap_append, and_self]

theorem report_of_noisy_lines :
    let told : List (Option Runner.Event) := [some (.call ⟨"add_action", none, 7⟩), none,
      some (.diagnostic ⟨.warning, "late", some ⟨"a.php"⟩, 0⟩), none]
    let call : String :=
      braced (r#""line":7, "x":[[],"# ++ braced "" ++ r#"],"function":"add_action","event":"call""#)
    let diagnostic : String :=
      braced r#""event":"diagnostic","level":"warning","message":"l\u0061te","file":"a.php""#
    let lines : List Bytes := [Text.encode (" " ++ call ++ "\r").toList, [0x7B, 0xE2, 0x82],
      Text.encode diagnostic.toList, []]
    let report := Load.Report.ofEvents (ofOutput (List.intercalate [0x0A] lines)) 12
    List.Forall₂ LineTells told lines ∧ (∀ line ∈ lines, 0x0A ∉ line) ∧
      report.calls = [⟨"add_action", none, 7⟩] ∧
      report.diagnostics = [⟨.warning, "late", some ⟨"a.php"⟩, 0⟩] := by
  intro told call diagnostic lines report
  have tells : List.Forall₂ LineTells told lines := by
    refine .cons ?_ (.cons ?_ (.cons ?_ (.cons ?_ .nil))) <;> rw [lineTells_iff] <;> decide +kernel
  have feeds : ∀ line ∈ lines, 0x0A ∉ line := by decide +kernel
  exact ⟨tells, feeds, report_of_lines.1 told lines 12 tells feeds⟩

section Nested

/-- Arrays one inside another. -/
def nest : Nat → Document
  | 0 => .arr []
  | n + 1 => .arr [nest n]

def nestText : Nat → List Char
  | 0 => ['[', ']']
  | n + 1 => '[' :: (nestText n ++ [']'])

theorem depth_nest (n : Nat) : (nest n).depth = n + 1 := by
  induction n with
  | zero => rfl
  | succ n ih => simp [nest, Document.depth, Json.itemsDepth, ih]

theorem nest_laid (n : Nat) : Laid (nest n).tokens (nestText n) := by
  have opened : Laid [.openArray] ['['] := Json.laid_of_tokens? rfl
  have closed : Laid [.closeArray] [']'] := Json.laid_of_tokens? rfl
  induction n with
  | zero => exact opened.append closed
  | succ n ih =>
    have laid := opened.append (ih.append closed)
    simpa [nest, nestText, Document.tokens, Json.itemTokens] using laid

theorem nestText_line (n : Nat) : '\n' ∉ nestText n := by
  induction n with
  | zero => decide
  | succ n ih => simp [nestText, ih]

def deepCall : Runner.Event := .call ⟨"deep", none, 0⟩

def deepMembers (n : Nat) : Members :=
  [textMember "event" "call", textMember "function" "deep", (some "x", nest n)]

def deepStart : List Char := "\"event\":\"call\",\"function\":\"deep\",\"x\":".toList

def deepLine (n : Nat) : List Char := '{' :: ((deepStart ++ nestText n) ++ ['}'])

theorem deep_tells (n : Nat) : deepCall.Tells (deepMembers n) :=
  ⟨_, [(some "x", nest n)], .call .left .left, .refl _, by simp [names, deepCall]⟩

theorem deep_laid (n : Nat) : Laid (Document.obj (deepMembers n)).tokens (deepLine n) := by
  have opened : Laid [.openObject] ['{'] := Json.laid_of_tokens? rfl
  have start : Laid [.str (some "event"), .colon, .str (some "call"), .comma,
      .str (some "function"), .colon, .str (some "deep"), .comma, .str (some "x"), .colon]
      deepStart := Json.laid_of_tokens? rfl
  have closed : Laid [.closeObject] ['}'] := Json.laid_of_tokens? rfl
  have laid := opened.append ((start.append (nest_laid n)).append closed)
  simpa [deepMembers, deepLine, textMember, Document.tokens, Json.memberTokens] using laid

/-- An event is lost if it has a member that is nested too deeply. -/
theorem deep_lost {n : Nat} (deep : 126 ≤ n) : ofLine? (deepLine n) = none := by
  have read : ofLine? (deepLine n) = ofDocument? (.obj (deepMembers n)) := by
    have object := @ofLine?_object (deepMembers n) [] (deepStart ++ nestText n) [] (by simp)
      (by simp) (deep_laid n)
    rwa [List.nil_append, List.append_nil] at object
  rw [read]
  refine Option.eq_none_iff_forall_ne_some.mpr fun e told => ?_
  have shallow := (ofDocument?_eq_some_iff.mp told).2.1
  simp [deepMembers, textMember, Document.depth, Json.membersDepth, depth_nest] at shallow
  omega

def garbledLine : Bytes :=
  Text.encode ('{' :: r#""event":"call","function":"f"#.toList) ++ 0xFF :: Text.encode ['"', '}']

/-- Not every object with the members of an event is told, and not all bytes that are no text are
passed over: an object may be nested too deeply, and a malformed character may stand in a name. -/
theorem nested_lost_garbled_told :
    (¬∀ (e : Runner.Event) (members : Members) (text : List Char), e.Tells members →
      Laid (Document.obj members).tokens text → '\n' ∉ text → ofOutput (Text.encode text) = [e]) ∧
    ¬∀ line : Bytes, 0x0A ∉ line → Text.decode? line = none → ofOutput line = [] := by
  constructor
  · intro every
    have feed : '\n' ∉ deepLine 126 := by
      have start : '\n' ∉ deepStart := by decide +kernel
      simp [deepLine, start, nestText_line]
    have told := every deepCall (deepMembers 126) (deepLine 126) (deep_tells 126) (deep_laid 126) feed
    rw [ofOutput_encode feed, deep_lost (Nat.le_refl 126)] at told
    cases told
  · intro every
    have feed : 0x0A ∉ garbledLine := by decide +kernel
    have read : ofLine? (decodeLossy garbledLine) = some (.call ⟨"f\uFFFD", none, 0⟩) := by
      decide +kernel
    have nothing := every garbledLine feed (by decide +kernel)
    rw [ofOutput_line feed, read] at nothing
    cases nothing

end Nested

end Runner.Event

end PluginAudit
