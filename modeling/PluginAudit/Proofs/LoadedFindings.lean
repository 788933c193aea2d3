import Mathlib.Data.List.Forall2
import PluginAudit.Check.Loading
import PluginAudit.Host.Memory
import PluginAudit.Proofs.CheckFrame
import PluginAudit.Proofs.RecordedFindings
import PluginAudit.Proofs.ReportedPlaces
import PluginAudit.Proofs.Spelling

/-!
What the two checks of the loading add to the record. Each diagnostic gives one finding, and so does
each call of a function that is not allowed, if the plugin makes it. Findings that fall together, as
those do which are laid to the main file, stay in the order of the load report.
-/

namespace PluginAudit

/-- Where a finding about what the host reports is placed. -/
def Context.spot (context : Context) (file : Option Path) (line : Nat) : Finding.Place :=
  ((context.place file line).1, (context.place file line).2, 0)

/-- There is one finding for each source, in the same order, and so it is at every place. -/
structure Finding.OneEach {α : Type} (tells : α → Finding → Prop) (spot : α → Finding.Place)
    (sources : List α) (found : List Finding) : Prop where
  whole : List.Forall₂ tells sources found
  placed : ∀ place, List.Forall₂ tells (sources.filter (spot · = place))
    (found.filter (·.place = place))

theorem Finding.OneEach.of_map {α : Type} {tells : α → Finding → Prop} {spot : α → Finding.Place}
    {finding : α → Finding} (told : ∀ a, tells a (finding a))
    (there : ∀ a f, tells a f → f.place = spot a) (sources : List α) :
    OneEach tells spot sources (sources.map finding) := by
  have whole : List.Forall₂ tells sources (sources.map finding) := by
    rw [List.forall₂_map_right_iff, List.forall₂_same]
    exact fun a _ => told a
  refine ⟨whole, fun place => List.rel_filter (fun a f tell => ?_) whole⟩
  change decide (spot a = place) = true ↔ decide (f.place = place) = true
  rw [there a f tell]

theorem Finding.map_eq_of_tells {α β : Type} {tells : α → Finding → Prop} {sources : List α}
    {found : List Finding} {shown : Finding → β} {name : α → β}
    (each : List.Forall₂ tells sources found) (same : ∀ a f, tells a f → shown f = name a) :
    found.map shown = sources.map name := by
  induction each with
  | nil => rfl
  | cons here _ ih => rw [List.map_cons, List.map_cons, same _ _ here, ih]

namespace DiagnosticsCheck

/-- The finding has what there is to say about the diagnostic. -/
structure Tells (context : Context) (d : Diagnostic) (f : Finding) : Prop where
  message : f.message = d.message
  severity : f.severity = if d.level = .fatal then .error else .warning
  fatal : f.code = "runtime_fatal_error" ↔ d.level = .fatal
  other : d.level ≠ .fatal → f.code = "runtime_" ++ d.level.text
  place : f.place = context.spot d.file d.line

theorem tells_finding (context : Context) (d : Diagnostic) :
    Tells context d (finding context d) := by
  obtain ⟨level, message, file, line⟩ := d
  cases level with
  | fatal => exact ⟨rfl, rfl, iff_of_true rfl rfl, fun other => absurd rfl other, rfl⟩
  | _ =>
    exact ⟨rfl, rfl, by simp [finding, Finding.warning, Finding.within, Finding.atPlace],
      fun _ => by rfl, rfl⟩

end DiagnosticsCheck

namespace CallsCheck

variable {context : Context} {functions : List String} {c : ObservedCall}

/-- The finding has what there is to say about the call. -/
structure Tells (context : Context) (c : ObservedCall) (f : Finding) : Prop where
  message : f.message = c.function ++
    "() was called while the plugin loaded. Plugins must not change the server configuration."
  severity : f.severity = .error
  code : f.code = "disallowed_function_call"
  place : f.place = context.spot c.file c.line

theorem tells_finding (context : Context) (c : ObservedCall) :
    Tells context c (finding context c) where
  message := String.append_assoc
  severity := rfl
  code := rfl
  place := rfl

/-- The call is made from a file below the root, and the function is one of these but for the case
of its letters. -/
def Offends (functions : List String) (context : Context) (c : ObservedCall) : Prop :=
  (∃ file, c.file = some file ∧ context.root.components <+: file.components) ∧
    ∃ name ∈ functions, Text.asciiLower name.toList = Text.asciiLower c.function.toList

theorem owns_file_iff {file : Option Path} : context.owns file = true ↔
    ∃ p, file = some p ∧ context.root.components <+: p.components := by
  cases file with
  | none => simp [Context.owns]
  | some p => simp [Context.owns, Path.isUnder_iff]

theorem isDisallowed_iff : isDisallowed functions context c = true ↔ Offends functions context c := by
  simp only [isDisallowed, Bool.and_eq_true, owns_file_iff, List.any_eq_true,
    Text.sameIgnoringCase_iff, Offends]

instance (c : ObservedCall) : Decidable (Offends functions context c) :=
  decidable_of_iff _ isDisallowed_iff

theorem findings_eq (functions : List String) (context : Context) (report : Load.Report) :
    findings functions context report =
      (report.calls.filter (Offends functions context ·)).map (finding context) := by
  have same (c : ObservedCall) : isDisallowed functions context c =
      decide (Offends functions context c) := by
    rw [Bool.eq_iff_iff, isDisallowed_iff, decide_eq_true_iff]
  rw [findings, List.filter_congr fun c _ => same c]

end CallsCheck

namespace CheckRecord

/-- What has come of these calls has got these findings, and nothing else. -/
structure Gains (calls : List RecordCall) (found : List Finding) (record : CheckRecord) :
    Prop where
  added : record = empty.after (calls ++ found.map .add)
  findings : record.findings =
    (calls.filterMap RecordCall.added? ++ found).mergeSort Finding.upto
  placed : ∀ place, record.findings.filter (·.place = place) =
    (empty.after calls).findings.filter (·.place = place) ++ found.filter (·.place = place)
  failures : record.failures = (empty.after calls).failures

theorem findings_after (calls : List RecordCall) : (empty.after calls).findings =
    (calls.filterMap RecordCall.added?).mergeSort Finding.upto := by
  rw [findings, (after_eq empty calls).1]
  exact findings_addAll _

theorem addAll_eq_after (r : CheckRecord) (found : List Finding) :
    r.addAll found = r.after (found.map .add) := by
  rw [after, List.foldl_map]
  rfl

theorem gains_addAll (calls : List RecordCall) (found : List Finding) :
    ((empty.after calls).addAll found).Gains calls found := by
  have whole : (empty.after calls).addAll found = empty.after (calls ++ found.map .add) := by
    rw [addAll_eq_after, after, after, after, List.foldl_append]
  have added : (found.map RecordCall.add).filterMap RecordCall.added? = found := by
    rw [List.filterMap_map]
    exact List.filterMap_some
  have failed : (found.map RecordCall.add).filterMap RecordCall.failed? = [] := by
    simp [RecordCall.failed?]
  rw [whole]
  refine ⟨rfl, ?_, fun place => ?_, ?_⟩
  · rw [findings_after, List.filterMap_append, added]
  · rw [findings_after, findings_after, Finding.filter_mergeSort, Finding.filter_mergeSort,
      List.filterMap_append, added, List.filter_append]
  · rw [(after_eq empty _).2, (after_eq empty _).2, List.filterMap_append, failed, List.append_nil]

end CheckRecord

namespace Progress

variable {σ : Type} {host : Host σ} {env : Environment} {watch : Watch} {p loaded : Progress σ}
  {report : Load.Report} {wait : Pause} {calls : List RecordCall}

theorem load_record (host : Host σ) (env : Environment) (p : Progress σ) :
    (load host env p).2.2.record = p.record := by
  unfold load
  split <;> rfl

/-- A check lets other work go on while the plugin is loaded, and can be stopped then. -/
theorem halt_load (host : Host σ) (env : Environment) (rest : Program checkCalls Ending)
    (p q : Progress σ) : (halt host env ((load host env p).2.1.state rest) q).2 = q := by
  unfold load
  split
  · rfl
  · dsimp only
    split <;> rfl

theorem runBody_emitAll (found : List Finding) (p : Progress σ) :
    runBody host env watch (RuntimeCheck.emitAll found) p =
      runBody host env watch (pure .passed) { p with record := p.record.addAll found } := by
  induction found generalizing p with
  | nil => rfl
  | cons f rest ih =>
    have added := runBody_ask host env watch (.emit f) (fun _ => RuntimeCheck.emitAll rest) p
    exact added.trans (ih { p with record := p.record.add f })

theorem runBody_passed (host : Host σ) (env : Environment) (watch : Watch) (p : Progress σ) :
    (runBody host env watch (pure .passed) p).2 = p ∧
      ((runBody host env watch (pure .passed) p).1 = .ok .passed ∨
        watch.parallel = true ∧ ∃ stop, (runBody host env watch (pure .passed) p).1 = .error stop) := by
  rw [show (pure .passed : Program checkCalls Ending) = .done .passed from rfl, runBody_done]
  cases watch.parallel with
  | false => exact ⟨rfl, .inl rfl⟩
  | true =>
    cases watch.stop? p.cancelRequested p.clock 0 with
    | none => exact ⟨rfl, .inl rfl⟩
    | some stop => exact ⟨rfl, .inr ⟨rfl, _, rfl⟩⟩

theorem runBody_onLoad_stopped {findings : Load.Report → List Finding} {stop : Stop}
    {q : Progress σ} (answered : load host env p = (.ok report, wait, loaded))
    (stopped : pause watch wait loaded = (some stop, q)) :
    runBody host env watch (RuntimeCheck.onLoad findings) p = (.error stop, q) := by
  unfold RuntimeCheck.onLoad
  rw [runBody_ask]
  simp only [answer]
  have halts (rest : Program checkCalls Ending) := halt_load host env rest p q
  simp only [answered] at halts ⊢
  simp only [stopped, halts]

theorem runBody_onLoad {findings : Load.Report → List Finding} {q : Progress σ}
    (answered : load host env p = (.ok report, wait, loaded))
    (unstopped : pause watch wait loaded = (none, q)) :
    runBody host env watch (RuntimeCheck.onLoad findings) p =
      runBody host env watch (RuntimeCheck.emitAll (findings report)) q := by
  unfold RuntimeCheck.onLoad
  rw [runBody_ask]
  simp only [answer, answered, unstopped]

/-- How a check ends that has these findings: if the run is stopped while the plugin is loaded it
has added none of them, and else all. -/
def Ends (watch : Watch) (calls : List RecordCall) (found : List Finding) (stopped : Option Stop)
    (ended : Except Stop Ending × Progress σ) : Prop :=
  match stopped with
  | some stop => ended.1 = .error stop ∧ ended.2.record = .after .empty calls
  | none =>
    (ended.1 = .ok .passed ∨ watch.parallel = true ∧ ∃ stop, ended.1 = .error stop) ∧
      ended.2.record.Gains calls found

theorem onLoad_ends {findings : Load.Report → List Finding}
    (recorded : p.record = .after .empty calls)
    (answered : load host env p = (.ok report, wait, loaded)) :
    Ends watch calls (findings report) (pause watch wait loaded).1
      (runBody host env watch (RuntimeCheck.onLoad findings) p) := by
  have kept : loaded.record = .after .empty calls := by
    have same := load_record host env p
    rwa [answered, recorded] at same
  obtain ⟨clock, later⟩ := pause_keeps watch wait loaded
  cases paused : pause watch wait loaded with
  | mk stopped q =>
    rw [paused] at later
    obtain rfl : q = { loaded with clock } := later
    cases stopped with
    | some stop =>
      rw [runBody_onLoad_stopped answered paused]
      exact ⟨rfl, kept⟩
    | none =>
      rw [runBody_onLoad answered paused, runBody_emitAll]
      obtain ⟨same, ends⟩ := runBody_passed host env watch
        { loaded with clock, record := loaded.record.addAll (findings report) }
      refine ⟨ends, ?_⟩
      rw [same, kept]
      exact CheckRecord.gains_addAll calls (findings report)

/-- What the two checks of the loading record, for any load report. The check of the diagnostics has
a finding for each of them. The check of the calls has one for each call that is the plugin's own
and of a function that is not allowed, and none for a call from elsewhere. Both record what they
have found and nothing else, in the order of the report, wherever findings fall together. -/
theorem load_findings_exact (functions : List String) (recorded : p.record = .after .empty calls)
    (answered : load host env p = (.ok report, wait, loaded)) :
    ∃ told reported : List Finding,
      Finding.OneEach (DiagnosticsCheck.Tells env.context) (fun d => env.context.spot d.file d.line)
        report.diagnostics told ∧
      Finding.OneEach (CallsCheck.Tells env.context) (fun c => env.context.spot c.file c.line)
        (report.calls.filter (CallsCheck.Offends functions env.context ·)) reported ∧
      Ends watch calls told (pause watch wait loaded).1
        (runBody host env watch
          (RuntimeCheck.diagnostics.body env.context env.namespaceName) p) ∧
      Ends watch calls reported (pause watch wait loaded).1
        (runBody host env watch
          ((RuntimeCheck.calls functions).body env.context env.namespaceName) p) := by
  refine ⟨DiagnosticsCheck.findings env.context report,
    CallsCheck.findings functions env.context report, ?_, ?_,
    onLoad_ends recorded answered, onLoad_ends recorded answered⟩
  · exact .of_map (DiagnosticsCheck.tells_finding env.context) (fun d f tell => tell.place) _
  · rw [CallsCheck.findings_eq]
    exact .of_map (CallsCheck.tells_finding env.context) (fun c f tell => tell.place) _

/-- A load report in which the host speaks of files of its own too. -/
def mixedReport : Load.Report where
  calls := [⟨"INI_SET", some ⟨"/wp/plugins/hello/inc/a.php"⟩, 7⟩,
    ⟨"ini_set", some ⟨"/wp/load.php"⟩, 3⟩, ⟨"dl", none, 0⟩,
    ⟨"strlen", some ⟨"/wp/plugins/hello/hello.php"⟩, 2⟩]
  diagnostics := [⟨.notice, "late", none, 9⟩, ⟨.warning, "odd", some ⟨"/wp/plugins/hello/a.php"⟩, 5⟩,
    ⟨.fatal, "broken", some ⟨"/wp/load.php"⟩, 4⟩]
  durationMs := 1

/-- A run in which the plugin has been loaded and something has been found in its main file. -/
def afterLoading : Progress (World MemoryStore) where
  world := ⟨.initial false false, [], ⟨[], []⟩⟩
  record := .after .empty [.add ((Finding.error "early" "early").within "hello.php")]
  trace := []
  clock := 0
  cancelRequested := false
  report := some mixedReport

theorem load_findings_exact_mixed :
    ∃ told reported : List Finding,
      (told.filter (·.place = ("hello.php", 0, 0))).map (·.message) = ["late", "broken"] ∧
      reported.map (·.place) = [("inc/a.php", 7, 0)] ∧
      (runBody MemoryStore.storage.host ⟨0, .hello, "run"⟩ ⟨none, none, false⟩
        (RuntimeCheck.diagnostics.body .hello "run") afterLoading).2.record.Gains
          [.add ((Finding.error "early" "early").within "hello.php")] told ∧
      (runBody MemoryStore.storage.host ⟨0, .hello, "run"⟩ ⟨none, none, false⟩
        ((RuntimeCheck.calls CallsCheck.defaultFunctions).body .hello "run")
          afterLoading).2.record.Gains
            [.add ((Finding.error "early" "early").within "hello.php")] reported := by
  obtain ⟨told, reported, diagnostics, calls, passed, passed'⟩ :=
    @load_findings_exact _ MemoryStore.storage.host ⟨0, .hello, "run"⟩ ⟨none, none, false⟩
      afterLoading afterLoading mixedReport .none _ CallsCheck.defaultFunctions rfl rfl
  refine ⟨told, reported, ?_, ?_, passed.2, passed'.2⟩
  · rw [Finding.map_eq_of_tells (diagnostics.placed _) fun d f tell => tell.message]
    decide +kernel
  · rw [Finding.map_eq_of_tells calls.whole fun c f tell => tell.place]
    decide +kernel

end Progress

end PluginAudit
