import PluginAudit.Proofs.Inspection
import PluginAudit.Proofs.JsonIndented
import PluginAudit.Proofs.RecordedFindings

/-!
What a report tells. Its JSON text is read as an account that lists the findings the filter keeps
and all failures, with the numbers of both severities; and the exit status is that of the command,
whatever the format.
-/

namespace PluginAudit

open Json (Document soleMember? decimal)

namespace Report

/-- What is read from the JSON text of a report. -/
structure Account where
  plugin : String
  errorCount : Nat
  warningCount : Nat
  findings : List Finding
  failures : List Failure

namespace Account

variable {α : Type}

def text? : Document → Option String
  | .str s => s
  | _ => none

/-- A whole number without a sign. -/
def number? : Document → Option Nat
  | .num ⟨false, digits, [], none⟩ => some (decimal digits)
  | _ => none

def severity? (d : Document) : Option Severity :=
  (text? d).bind fun s => (Severity.ofText s).toOption

def items? (read : Document → Option α) : Document → Option (List α)
  | .arr items => items.mapM read
  | _ => none

/-- The value of a member that is there exactly once. -/
def member? (key : String) (read : Document → Option α) : Document → Option α
  | .obj members => (soleMember? key members).bind (·.bind read)
  | _ => none

def finding? (d : Document) : Option Finding := do
  let code ← member? "code" text? d
  let message ← member? "message" text? d
  let severity ← member? "severity" severity? d
  let file ← member? "file" text? d
  let line ← member? "line" number? d
  let column ← member? "column" number? d
  return ⟨code, message, severity, file, line, column⟩

def failure? (d : Document) : Option Failure := do
  let check ← member? "check" text? d
  let reason ← member? "reason" text? d
  return ⟨check, reason⟩

def ofDocument? (d : Document) : Option Account := do
  let plugin ← member? "plugin" text? d
  let errorCount ← member? "error_count" number? d
  let warningCount ← member? "warning_count" number? d
  let findings ← member? "findings" (items? finding?) d
  let failures ← member? "failed_checks" (items? failure?) d
  return ⟨plugin, errorCount, warningCount, findings, failures⟩

/-- Reads a JSON text. -/
def ofText? (text : String) : Option Account := (Document.read? text.toList).bind ofDocument?

theorem number?_ofNat (n : Nat) : number? (Json.ofNat n).document = some n := by
  obtain ⟨-, digits⟩ := Json.Numeral.ofInt_spelled (n : Int)
  have whole : (Json.ofNat n).document =
      .num ⟨false, (Json.Numeral.ofInt n).whole, [], none⟩ := by
    simp [Json.ofNat, Json.document, Json.Numeral.ofInt]
  rw [whole, number?, digits, Int.natAbs_natCast]

theorem severity?_document (s : Severity) : severity? (Json.str s.text).document = some s := by
  cases s <;> decide

theorem member?_document {v w : Json} {key : String} (distinct : v.names.Nodup)
    (there : v.field? key = some w) (read : Document → Option α) :
    member? key read v.document = read w.document := by
  cases v with
  | obj members =>
    have found : members.lookup key = some w := there
    rw [Json.document, member?, Json.soleMember?_memberDocuments distinct, found]
    rfl
  | _ => cases there

/-- A list is read from the documents that its members are written as. -/
theorem items?_map {write : α → Json} {read : Document → Option α}
    (again : ∀ a, read (write a).document = some a) (as : List α) :
    items? read (Json.arr (as.map write)).document = some as := by
  rw [Json.document, items?, Json.itemDocuments_eq]
  induction as with
  | nil => rfl
  | cons a as ih =>
    rw [List.map_cons, List.map_cons, List.mapM_cons, again, ih]
    rfl

theorem finding?_document (f : Finding) : finding? (findingJson f).document = some f := by
  have distinct : (findingJson f).names.Nodup :=
    show ["code", "message", "severity", "file", "line", "column"].Nodup by decide
  have member {β : Type} (key : String) {v : Json} :=
    @member?_document β (findingJson f) v key distinct
  rw [finding?, member "code" rfl, member "message" rfl, member "severity" rfl, member "file" rfl,
    member "line" rfl, member "column" rfl, severity?_document, number?_ofNat, number?_ofNat]
  rfl

theorem failure?_document (f : Failure) : failure? (failureJson f).document = some f := by
  have distinct : (failureJson f).names.Nodup := show ["check", "reason"].Nodup by decide
  have member {β : Type} (key : String) {v : Json} :=
    @member?_document β (failureJson f) v key distinct
  rw [failure?, member "check" rfl, member "reason" rfl]
  rfl

theorem ofDocument?_toJson (r : Report) : ofDocument? r.toJson.document =
    some ⟨r.plugin, r.count .error, r.count .warning, r.findings, r.failures⟩ := by
  have distinct : r.toJson.names.Nodup :=
    show ["plugin", "error_count", "warning_count", "findings", "failed_checks"].Nodup by decide
  have member {β : Type} (key : String) {v : Json} := @member?_document β r.toJson v key distinct
  rw [ofDocument?, member "plugin" rfl, member "error_count" rfl, member "warning_count" rfl,
    member "findings" rfl, member "failed_checks" rfl, number?_ofNat, number?_ofNat,
    items?_map finding?_document, items?_map failure?_document]
  rfl

end Account

theorem toJson_whole (r : Report) : r.toJson.Whole := by
  have findings : ∀ v ∈ r.findings.map findingJson, v.Whole := by
    simp [findingJson, Json.Whole, Json.WholeMembers, Json.ofNat]
  have failures : ∀ v ∈ r.failures.map failureJson, v.Whole := by
    simp [failureJson, Json.Whole, Json.WholeMembers]
  simp only [toJson, Json.ofNat, Json.Whole, Json.WholeMembers, true_and, and_true]
  exact ⟨Json.wholeItems_iff.mpr findings, Json.wholeItems_iff.mpr failures⟩

/-- The JSON text of a report is read again. -/
theorem ofText?_render (r : Report) (colours : Bool) : Account.ofText? (r.render colours .json) =
    some ⟨r.plugin, r.count .error, r.count .warning, r.findings, r.failures⟩ := by
  rw [Account.ofText?, render, Json.read?_pretty r.toJson_whole]
  exact Account.ofDocument?_toJson r

section Status

variable {plugin : String} {record : CheckRecord} {filter : Filter} {r : Report}

theorem status_eq (r : Report) : r.status =
    if r.failures ≠ [] then 2 else if ∃ f ∈ r.findings, f.severity = .error then 1 else 0 := by
  have counted : 0 < r.count .error ↔ ∃ f ∈ r.findings, f.severity = .error := by
    rw [count, List.countP_pos_iff]
    simp
  simp only [status, counted, Bool.not_eq_true', List.isEmpty_eq_false_iff]

theorem error_kept_iff : (∃ f ∈ (ofRecord plugin record filter).findings, f.severity = .error) ↔
    filter.ignoreErrors = false ∧ ∃ f ∈ record.findings, f.severity = .error := by
  simp only [ofRecord, List.mem_filter, Filter.keeps]
  constructor
  · rintro ⟨f, ⟨found, kept⟩, error⟩
    rw [error] at kept
    exact ⟨by simpa using kept, f, found, error⟩
  · rintro ⟨kept, f, found, error⟩
    exact ⟨f, ⟨found, by simp [error, kept]⟩, error⟩

/-- Warnings have no weight. -/
theorem status_ofRecord : (ofRecord plugin record filter).status =
    if record.failures ≠ [] then 2
    else if filter.ignoreErrors = false ∧ ∃ f ∈ record.findings, f.severity = .error then 1
    else 0 := by
  simp only [status_eq, error_kept_iff]
  rfl

theorem status_ignoringWarnings (ignoreWarnings : Bool) :
    (ofRecord plugin record { filter with ignoreWarnings }).status =
      (ofRecord plugin record filter).status := by
  rw [status_ofRecord, status_ofRecord]

theorem status_ignoringErrors :
    (ofRecord plugin record { filter with ignoreErrors := true }).status ≤
      (ofRecord plugin record filter).status := by
  rw [status_ofRecord, status_ofRecord]
  split
  · exact le_rfl
  · simp

end Status

end Report

namespace Command

variable {m : Machine} {id : String} {request : CheckRequest} {format : Report.Format}
  {filter : Report.Filter} {colours : Bool}

/-- The exit status of an inspection in a format, with a filter. -/
def checkStatus (m : Machine) (id : String) (colours : Bool) (request : CheckRequest)
    (format : Report.Format) (filter : Report.Filter) : Nat :=
  (execute m id colours (.check { request with format, filter })).status

theorem checkStatus_eq : checkStatus m id colours request format filter =
    match recorded m id request with
    | .ok (context, record) => (Report.ofRecord context.slug record filter).status
    | .error fault => fault.status := by
  have same : recorded m id { request with format, filter } = recorded m id request := rfl
  rw [checkStatus, execute_eq, same]
  cases recorded m id request <;> rfl

/-- Of two reports that are made in the place of each other for any name and record, one may not
weigh more. -/
theorem checkStatus_mono {format' : Report.Format} {filter' : Report.Filter}
    (lighter : ∀ plugin record, (Report.ofRecord plugin record filter').status ≤
      (Report.ofRecord plugin record filter).status) :
    checkStatus m id colours request format' filter' ≤
      checkStatus m id colours request format filter := by
  rw [checkStatus_eq, checkStatus_eq]
  split
  · exact lighter _ _
  · exact le_rfl

end Command

/-- The JSON text of a report is read as its name, the findings that the filter keeps in the order
of the record, which is that of their places, all failures, and the numbers of both severities among
the findings. The status is 2 if something failed, else 1 if an error is kept, else 0. It is that of
the command whatever the format, and whether warnings are left out; leaving out errors never raises
it. -/
theorem Report.accounted_and_weighed (plugin : String) (record : CheckRecord) (filter : Filter) :
    let r := ofRecord plugin record filter
    let kept := record.findings.filter filter.keeps
    (∀ colours, Account.ofText? (r.render colours .json) =
      some ⟨plugin, kept.countP (·.severity = .error), kept.countP (·.severity = .warning), kept,
        record.failures⟩) ∧
    (∀ calls, record = CheckRecord.empty.after calls →
      kept = ((calls.filterMap RecordCall.added?).mergeSort Finding.upto).filter filter.keeps ∧
        record.failures = calls.filterMap RecordCall.failed?) ∧
    r.status = (if record.failures ≠ [] then 2
      else if ∃ f ∈ kept, f.severity = .error then 1 else 0) ∧
    (∀ ignoreWarnings, (ofRecord plugin record { filter with ignoreWarnings }).status = r.status) ∧
    (ofRecord plugin record { filter with ignoreErrors := true }).status ≤ r.status ∧
    ∀ m id colours request format,
      let status := Command.checkStatus m id colours request
      status .table filter = status .json filter ∧
      (∀ ignoreWarnings, status format { filter with ignoreWarnings } = status format filter) ∧
      status format { filter with ignoreErrors := true } ≤ status format filter := by
  intro r kept
  refine ⟨fun colours => ofText?_render r colours, ?_, r.status_eq,
    fun ignoreWarnings => status_ignoringWarnings ignoreWarnings, status_ignoringErrors, ?_⟩
  · rintro calls rfl
    obtain ⟨files, failures⟩ := CheckRecord.after_eq .empty calls
    refine ⟨?_, failures⟩
    rw [← CheckRecord.findings_addAll, CheckRecord.findings, ← files]
    rfl
  · intro m id colours request format status
    refine ⟨?_, fun ignoreWarnings => ?_, Command.checkStatus_mono fun _ _ => status_ignoringErrors⟩
    · exact le_antisymm (Command.checkStatus_mono fun _ _ => le_rfl)
        (Command.checkStatus_mono fun _ _ => le_rfl)
    · exact le_antisymm
        (Command.checkStatus_mono fun _ _ => (status_ignoringWarnings ignoreWarnings).le)
        (Command.checkStatus_mono fun _ _ => (status_ignoringWarnings ignoreWarnings).ge)

end PluginAudit
