import PluginAudit.Proofs.FindingOrder
import PluginAudit.Proofs.TextOrder

/-!
What a record tells after any sequence of calls. The findings are those that have been added, in a
stable order by file, line and column; errors and warnings are parts of them without empty places;
failures stand apart in the order of the calls; and a copy goes its own way.
-/

namespace PluginAudit

namespace Finding

/-- Files in the order of their bytes, then lines, then columns. -/
def upto (f g : Finding) : Bool :=
  let file := Text.encode f.file.toList
  let file' := Text.encode g.file.toList
  decide (file < file' ∨
    file = file' ∧ (f.line < g.line ∨ f.line = g.line ∧ f.column ≤ g.column))

theorem upto_iff {f g : Finding} : f.upto g = true ↔ f.place.Upto g.place := by
  have same : Text.encode f.file.toList = Text.encode g.file.toList ↔ f.file = g.file := by
    refine ⟨fun bytes => ?_, fun file => by rw [file]⟩
    have texts := congrArg Text.decode? bytes
    rw [Text.decode?_encode, Text.decode?_encode] at texts
    exact String.toList_inj.mp (Option.some.inj texts)
  simp only [upto, decide_eq_true_eq, Text.encode_lt_iff, same]
  rfl

theorem upto_trans (f g h : Finding) (first : f.upto g = true) (second : g.upto h = true) :
    f.upto h = true := upto_iff.mpr ((upto_iff.mp first).trans (upto_iff.mp second))

theorem upto_total (f g : Finding) : (f.upto g || g.upto f) = true := by
  rw [Bool.or_eq_true, upto_iff, upto_iff]
  exact Place.Upto.total f.place g.place

/-- Sorting leaves the findings of one place in their order. -/
theorem filter_mergeSort (fs : List Finding) (place : Place) :
    (fs.mergeSort upto).filter (·.place = place) = fs.filter (·.place = place) := by
  have alike : (fs.filter (·.place = place)).Pairwise fun f g => f.upto g = true := by
    refine List.pairwise_of_forall_mem_list fun f member g member' => ?_
    have here : f.place = g.place := by
      rw [of_decide_eq_true (List.mem_filter.mp member).2,
        of_decide_eq_true (List.mem_filter.mp member').2]
    have equal := Place.Upto.total f.place g.place
    rw [here, or_self] at equal
    rw [upto_iff, here]
    exact equal
  have inside : (fs.filter (·.place = place)).Sublist (fs.mergeSort upto) :=
    List.sublist_mergeSort upto_trans upto_total alike List.filter_sublist
  have within := inside.filter (·.place = place)
  rw [List.filter_filter] at within
  simp only [Bool.and_self] at within
  refine (within.eq_of_length ?_).symm
  exact (((List.mergeSort_perm fs upto).filter _).length_eq).symm

end Finding

namespace Files

variable {κ α β γ : Type}

/-- What is shown of the entries that are left is what was shown and is kept. -/
theorem flatMap_prune {shrink : α → List β} (view : α → List γ) (view' : List β → List γ)
    (keep : γ → Bool) (shrunk : ∀ v, view' (shrink v) = (view v).filter keep)
    (none : view' [] = []) (entries : List (κ × α)) :
    (prune shrink entries).flatMap (fun e => view' e.2) =
      (entries.flatMap fun e => view e.2).filter keep := by
  induction entries with
  | nil => rfl
  | cons entry rest ih =>
    obtain ⟨k, v⟩ := entry
    have here := shrunk v
    rw [List.flatMap_cons, List.filter_append, ← ih, ← here]
    simp only [prune, List.filterMap_cons]
    cases left : shrink v with
    | nil =>
      rw [none]
      rfl
    | cons b bs => rfl

theorem mem_prune {shrink : α → List β} {entries : List (κ × α)} {e : κ × List β}
    (member : e ∈ prune shrink entries) : e.2 ≠ [] ∧ ∃ v, e.2 = shrink v := by
  obtain ⟨⟨k, v⟩, -, kept⟩ := List.mem_filterMap.mp member
  cases left : shrink v with
  | nil =>
    simp only [left] at kept
    cases kept
  | cons b bs =>
    simp only [left] at kept
    cases kept
    exact ⟨List.cons_ne_nil b bs, v, left.symm⟩

theorem toList_withSeverity (s : Severity) (files : Files) :
    (files.withSeverity s).toList = files.toList.filter (·.severity = s) := by
  have columns (c : Columns) :
      (prune (List.filter (·.severity = s)) c).flatMap (fun e => e.2) =
        (c.flatMap fun e => e.2).filter (·.severity = s) :=
    flatMap_prune id id _ (fun _ => rfl) rfl c
  have lines (l : Lines) :
      (prune (prune (List.filter (·.severity = s))) l).flatMap (fun e => e.2.flatMap fun e => e.2) =
        (l.flatMap fun e => e.2.flatMap fun e => e.2).filter (·.severity = s) :=
    flatMap_prune (fun c : Columns => c.flatMap fun e => e.2) _ _ columns rfl l
  exact flatMap_prune (fun l : Lines => l.flatMap fun e => e.2.flatMap fun e => e.2) _ _ lines
    rfl files

/-- No file, no line and no column is without findings. -/
def Filled (files : Files) : Prop :=
  ∀ file ∈ files, file.2 ≠ [] ∧ ∀ line ∈ file.2, line.2 ≠ [] ∧ ∀ column ∈ line.2, column.2 ≠ []

theorem withSeverity_filled (s : Severity) (files : Files) : (files.withSeverity s).Filled := by
  intro file member
  obtain ⟨some, lines, same⟩ := mem_prune member
  refine ⟨some, fun line member => ?_⟩
  rw [same] at member
  obtain ⟨some, columns, same⟩ := mem_prune member
  refine ⟨some, fun column member => ?_⟩
  rw [same] at member
  exact (mem_prune member).1

end Files

inductive RecordCall where
  | add (f : Finding)
  | fail (check reason : String)

namespace RecordCall

def added? : RecordCall → Option Finding
  | .add f => some f
  | .fail _ _ => none

def failed? : RecordCall → Option Failure
  | .add _ => none
  | .fail check reason => some ⟨check, reason⟩

end RecordCall

namespace CheckRecord

def apply (r : CheckRecord) : RecordCall → CheckRecord
  | .add f => r.add f
  | .fail check reason => r.fail check reason

/-- What a sequence of calls leads to. -/
def after (r : CheckRecord) (calls : List RecordCall) : CheckRecord := calls.foldl apply r

theorem files_addAll (r : CheckRecord) (fs : List Finding) :
    (r.addAll fs).files = fs.foldl Files.add r.files := by
  induction fs generalizing r with
  | nil => rfl
  | cons f rest ih => exact ih (r.add f)

theorem findings_addAll (fs : List Finding) :
    (empty.addAll fs).findings = fs.mergeSort Finding.upto := by
  obtain ⟨proper, buckets⟩ := bucket_addAll fs
  refine Finding.eq_of_places proper.toList_sorted ?_ fun place => ?_
  · exact (List.pairwise_mergeSort Finding.upto_trans Finding.upto_total fs).imp Finding.upto_iff.mp
  · rw [findings, proper.filter_toList, buckets, Finding.filter_mergeSort]

/-- Findings and failures are kept apart. -/
theorem after_eq (r : CheckRecord) (calls : List RecordCall) :
    (r.after calls).files = (r.addAll (calls.filterMap RecordCall.added?)).files ∧
      (r.after calls).failures = r.failures ++ calls.filterMap RecordCall.failed? := by
  induction calls generalizing r with
  | nil => exact ⟨rfl, (List.append_nil _).symm⟩
  | cons c later ih =>
    obtain ⟨files, failures⟩ := ih (r.apply c)
    change ((r.apply c).after later).files = _ ∧ ((r.apply c).after later).failures = _
    rw [files, failures]
    cases c with
    | add f => exact ⟨rfl, rfl⟩
    | fail check reason =>
      refine ⟨?_, by simp [apply, fail, RecordCall.failed?]⟩
      rw [files_addAll, files_addAll]
      rfl

/-- What is told of the findings `adds` that have one severity: they are counted, and shown in the
order of all findings and without empty places. -/
structure Tells (r : CheckRecord) (adds : List Finding) (s : Severity) (count : Nat)
    (shown : Files) : Prop where
  added : count = adds.countP (·.severity = s)
  counted : count = shown.toList.length
  listed : shown.toList = r.findings.filter (·.severity = s)
  filled : shown.Filled

theorem tells {r : CheckRecord} {adds : List Finding} (all : r.findings.Perm adds) (s : Severity) :
    r.Tells adds s (r.count s) (r.files.withSeverity s) where
  added := all.countP_eq _
  counted := by
    rw [Files.toList_withSeverity, ← List.countP_eq_length_filter]
    rfl
  listed := Files.toList_withSeverity s r.files
  filled := Files.withSeverity_filled s r.files

end CheckRecord

/-- With several records about, a call to one of them, or the copying of one. -/
inductive KeptCall where
  | on (place : Nat) (call : RecordCall)
  | copy (place : Nat)

namespace KeptCall

/-- The call, if it is one to the record at `place`. -/
def to? (place : Nat) : KeptCall → Option RecordCall
  | .on other call => if other = place then some call else none
  | .copy _ => none

end KeptCall

namespace CheckRecord

/-- The records after a call. A copy comes last. -/
def keep (records : List CheckRecord) : KeptCall → List CheckRecord
  | .on place call => records.modify place (·.apply call)
  | .copy place => records ++ records[place]?.toList

theorem keep_at {records : List CheckRecord} {place : Nat} {r : CheckRecord}
    (there : records[place]? = some r) (c : KeptCall) :
    (keep records c)[place]? = some (r.after (c.to? place).toList) := by
  cases c with
  | copy other =>
    obtain ⟨inside, -⟩ := List.getElem?_eq_some_iff.mp there
    rw [keep, List.getElem?_append_left inside, there]
    rfl
  | on other call =>
    rw [keep, List.getElem?_modify, there, KeptCall.to?]
    split <;> rfl

/-- A record is what its own calls have made of it. -/
theorem kept_at {records : List CheckRecord} {place : Nat} {r : CheckRecord}
    (there : records[place]? = some r) (calls : List KeptCall) :
    (calls.foldl keep records)[place]? = some (r.after (calls.filterMap (·.to? place))) := by
  induction calls generalizing records r with
  | nil => exact there
  | cons c later ih =>
    rw [List.foldl_cons, ih (keep_at there c), List.filterMap_cons]
    cases c.to? place <;> rfl

/-- What a record tells after any calls, and what becomes of a copy that is made of it then. -/
theorem calls_recorded (calls : List RecordCall) :
    let r := empty.after calls
    let adds := calls.filterMap RecordCall.added?
    r.findings = adds.mergeSort Finding.upto ∧
      r.Tells adds .error r.errorCount r.errors ∧
      r.Tells adds .warning r.warningCount r.warnings ∧
      r.files = (empty.addAll adds).files ∧
      r.failures = calls.filterMap RecordCall.failed? ∧
      ∀ (before rest : List CheckRecord) (later : List KeptCall),
        let records := before ++ r :: rest
        (later.foldl keep (keep records (.copy before.length)))[records.length]? =
          some (r.after (later.filterMap (·.to? records.length))) := by
  intro r adds
  obtain ⟨files, failures⟩ := after_eq empty calls
  have sorted : r.findings = adds.mergeSort Finding.upto := by
    rw [findings, files]
    exact findings_addAll adds
  have all : r.findings.Perm adds := by
    rw [sorted]
    exact List.mergeSort_perm adds _
  refine ⟨sorted, tells all .error, tells all .warning, files, failures, ?_⟩
  intro before rest later records
  refine kept_at ?_ later
  have here : records[before.length]? = some r := by
    simp [records]
  rw [keep, here]
  exact List.getElem?_concat_length

end CheckRecord

end PluginAudit
