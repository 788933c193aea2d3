import PluginAudit.Check.Loading
import PluginAudit.Proofs.RunAccount
import PluginAudit.Report.Basic
import PluginAudit.Runner.Loading

/-!
A host runner that fails is never silent. Its load report has a fatal diagnostic, the check of the
host's diagnostics makes an error of each of these, and the report of a run that has an error has
a status of its own.
-/

namespace PluginAudit

namespace Runner

/-- The diagnostics that a runner has told. -/
def toldDiagnostics (exit : Exit) : List Diagnostic :=
  (Runner.Event.ofOutput exit.output).filterMap Runner.Event.asDiagnostic?

/-- Those, and the end of a runner that has failed without telling a fatal one. -/
def knownDiagnostics (exit : Exit) : List Diagnostic :=
  toldDiagnostics exit ++
    if exit.status.isSuccess ∨ ∃ d ∈ toldDiagnostics exit, d.level = .fatal then []
    else [exitDiagnostic exit]

theorem report_diagnostics (exit : Exit) (durationMs : Int) :
    (report exit durationMs).diagnostics = knownDiagnostics exit := by
  have told : (Load.Report.ofEvents (Runner.Event.ofOutput exit.output) durationMs).diagnostics =
      toldDiagnostics exit := rfl
  simp only [report, Load.Report.isFatal, told, knownDiagnostics, Bool.or_eq_true,
    List.any_eq_true, decide_eq_true_eq]
  split
  · rw [told, List.append_nil]
  · rfl

theorem knownDiagnostics_of_success {exit : Exit} (success : exit.status.isSuccess = true) :
    knownDiagnostics exit = toldDiagnostics exit := by
  simp [knownDiagnostics, success]

theorem knownDiagnostics_of_told {exit : Exit}
    (told : ∃ d ∈ toldDiagnostics exit, d.level = .fatal) :
    knownDiagnostics exit = toldDiagnostics exit := by
  rw [knownDiagnostics, if_pos (.inr told), List.append_nil]

theorem knownDiagnostics_of_untold {exit : Exit} (failed : exit.status.isSuccess = false)
    (untold : ∀ d ∈ toldDiagnostics exit, d.level ≠ .fatal) :
    knownDiagnostics exit = toldDiagnostics exit ++ [exitDiagnostic exit] := by
  have quiet : ¬(exit.status.isSuccess = true ∨
      ∃ d ∈ toldDiagnostics exit, d.level = .fatal) := by
    rintro (success | ⟨d, member, fatal⟩)
    · simp [failed] at success
    · exact untold d member fatal
  rw [knownDiagnostics, if_neg quiet]

theorem knownDiagnostics_fatal {exit : Exit} (failed : exit.status.isSuccess = false) :
    ∃ d ∈ knownDiagnostics exit, d.level = .fatal := by
  by_cases told : ∃ d ∈ toldDiagnostics exit, d.level = .fatal
  · obtain ⟨d, member, fatal⟩ := told
    exact ⟨d, List.mem_append_left _ member, fatal⟩
  · refine ⟨exitDiagnostic exit, ?_, rfl⟩
    simp [knownDiagnostics, failed, told]

theorem outcome_ended (r : Runner) (durationMs : Int) {after : Nat} (inTime : after < r.timeoutMs)
    (exit : Exit) :
    r.outcome durationMs (.ended after exit) = ⟨after, .ok (report exit durationMs)⟩ := by
  simp [outcome, inTime]

end Runner

/-- Whenever the host has a plugin loaded, its runner ends in one way. -/
def Host.RunnerEnds {σ : Type} (host : Host σ) (r : Runner) (after : Nat) (exit : Exit) : Prop :=
  ∀ session request s, ∃ durationMs,
    (host.load session request s).1 = r.outcome durationMs (.ended after exit)

namespace Progress

variable {σ : Type} {host : Host σ} {env : Environment} {known : List Diagnostic}

/-- If the plugin has been loaded, these are the diagnostics. -/
def Alone.Knows (known : List Diagnostic) (s : Alone σ) : Prop :=
  ∀ report, s.report = some report → report.diagnostics = known

/-- However the host has a plugin loaded, it reports these diagnostics. -/
def Reports (host : Host σ) (known : List Diagnostic) : Prop :=
  ∀ session request s, ∃ report,
    (host.load session request s).1.result = .ok report ∧ report.diagnostics = known

theorem load_reports (reports : Reports host known) {s : Alone σ} (knows : s.Knows known) :
    ∃ report, (Alone.answer host env .load s).1 = .ok report ∧ report.diagnostics = known ∧
      (Alone.answer host env .load s).2.report = some report ∧
      (Alone.answer host env .load s).2.found = s.found := by
  obtain ⟨world, loaded, made⟩ := s
  have silent : (made ++ [CheckCall.load]).filterMap CheckCall.emitted? =
      made.filterMap CheckCall.emitted? := by
    rw [List.filterMap_append]
    exact List.append_nil _
  cases loaded with
  | some report => exact ⟨report, rfl, knows report rfl, rfl, silent⟩
  | none =>
    let asked := host.ask env.session .overrides world
    obtain ⟨report, result, same⟩ := reports env.session
      ⟨env.context.mainFile, env.context.basename, env.namespaceName, asked.1⟩ asked.2
    refine ⟨report, result, same, ?_, silent⟩
    simp only [Alone.answer, Alone.load]
    rw [result]
    rfl

theorem answer_knows (reports : Reports host known) (c : CheckCall) (s : Alone σ)
    (knows : s.Knows known) : (Alone.answer host env c s).2.Knows known := by
  cases c with
  | load =>
    obtain ⟨report, -, same, loaded, -⟩ := @load_reports σ host env _ reports _ knows
    intro other known
    rw [loaded] at known
    cases known
    exact same
  | _ => exact knows

theorem run_knows (reports : Reports host known) (body : Program checkCalls Ending) {s : Alone σ}
    (knows : s.Knows known) : (body.run (Alone.answer host env) s).2.Knows known :=
  Program.run_relates (R := fun s t => s.Knows known → t.Knows known) (fun _ => id)
    (fun first second => second ∘ first) (fun c s => answer_knows reports c s) body s knows

theorem run_emitAll (findings : List Finding) (s : Alone σ) :
    (RuntimeCheck.emitAll findings).run (Alone.answer host env) s =
      (.passed, { s with made := s.made ++ findings.map .emit }) := by
  induction findings generalizing s with
  | nil => simp [RuntimeCheck.emitAll]
  | cons f rest ih =>
    have emitted : Alone.answer host env (.emit f) s =
        ((), { s with made := s.made ++ [.emit f] }) := rfl
    simp [RuntimeCheck.emitAll, emitted, ih]

theorem found_emitAll (findings : List Finding) (s : Alone σ) :
    ((RuntimeCheck.emitAll findings).run (Alone.answer host env) s).2.found =
      s.found ++ findings := by
  have all : (findings.map CheckCall.emit).filterMap CheckCall.emitted? = findings := by
    rw [List.filterMap_map]
    exact List.filterMap_some
  rw [run_emitAll, Alone.found, List.filterMap_append, all]
  rfl

/-- The check of the diagnostics passes, and finds what there is to say about each of them. -/
theorem run_diagnostics (reports : Reports host known) {s : Alone σ} (knows : s.Knows known) :
    let ended := (RuntimeCheck.diagnostics.body env.context env.namespaceName).run
      (Alone.answer host env) s
    ended.1 = .passed ∧
      ended.2.found = s.found ++ known.map (DiagnosticsCheck.finding env.context) := by
  obtain ⟨report, result, same, -, found⟩ := @load_reports σ host env _ reports _ knows
  simp only [RuntimeCheck.diagnostics, RuntimeCheck.onLoad, Program.run_ask, result]
  refine ⟨by rw [run_emitAll], ?_⟩
  rw [found_emitAll, found, DiagnosticsCheck.findings, same]

theorem outcomes_diagnostics (reports : Reports host known)
    {checks : List (Nat × String × RuntimeCheck)} {place : Nat} {slug : String}
    (selected : (place, slug, RuntimeCheck.diagnostics) ∈ checks) (world : σ)
    {report : Option Load.Report} (knows : Alone.Knows known ⟨world, report, []⟩) :
    ⟨place, slug, .passed, known.map (DiagnosticsCheck.finding env.context)⟩ ∈
      outcomes host env checks world report := by
  induction checks generalizing world report with
  | nil => cases selected
  | cons entry rest ih =>
    obtain ⟨place', slug', check⟩ := entry
    simp only [outcomes]
    rcases List.mem_cons.mp selected with same | later
    · cases same
      obtain ⟨passed, found⟩ := @run_diagnostics σ host env _ reports _ knows
      rw [passed, found]
      exact List.mem_cons_self
    · have after :=
        @run_knows σ host env _ reports (check.body env.context env.namespaceName) _ knows
      exact List.mem_cons_of_mem _ (ih later _ after)

end Progress

theorem Host.RunnerEnds.reports {σ : Type} {host : Host σ} {r : Runner} {after : Nat} {exit : Exit}
    (ends : host.RunnerEnds r after exit) (inTime : after < r.timeoutMs) :
    Progress.Reports host (Runner.knownDiagnostics exit) := by
  intro session request s
  obtain ⟨durationMs, ended⟩ := ends session request s
  refine ⟨Runner.report exit durationMs, ?_, Runner.report_diagnostics exit durationMs⟩
  rw [ended, r.outcome_ended durationMs inTime exit]

namespace Run

variable {σ : Type}

theorem mem_runtimeChecks {checks : List Check} {slug : String} {categories : List Category}
    {check : RuntimeCheck} (selected : ⟨slug, categories, .runtime check⟩ ∈ checks) :
    ∃ place, (place, slug, check) ∈ runtimeChecks checks := by
  obtain ⟨place, bound, here⟩ := List.mem_iff_getElem.mp selected
  refine ⟨place, List.mem_filterMap.mpr ⟨(⟨slug, categories, .runtime check⟩, place), ?_, rfl⟩⟩
  rw [List.mem_zipIdx_iff_getElem?, List.getElem?_eq_some_iff]
  exact ⟨bound, here⟩

/-- The record of a run has what its runtime checks would have found alone. -/
theorem run_ok_findings {host : Host σ} {settings : RunSettings} {conditions : RunConditions}
    {context : Context} {tree : FileTree} {checks : List Check} {world : σ} {record : CheckRecord}
    (selected : runtimeChecks checks ≠ [])
    (result : (run (some host) settings conditions context tree checks world).result = .ok record) :
    ∃ session started, ∀ o ∈ Progress.outcomes host ⟨session, context,
        settings.namespaceName conditions.id⟩ (runtimeChecks checks) started none,
      ∀ f ∈ o.found, f ∈ record.findings := by
  cases prepared : prepare (some host) settings context (settings.namespaceName conditions.id)
    (runtimeChecks checks) world with
  | mk answer scene =>
    cases answer with
    | error e =>
      rw [run_unprepared selected prepared] at result
      cases result
    | ok prepared' =>
      obtain ⟨h, session, cleanups⟩ := prepared'
      obtain ⟨same, -⟩ := prepare_ok prepared
      cases same
      rw [run_prepared selected prepared, finish_result] at result
      obtain ⟨unstopped, -, rfl⟩ := conclude_ok result
      obtain ⟨-, findings, -, -⟩ := checkPhase_settled (Prod.ext unstopped rfl)
      refine ⟨session, scene.1, fun o member f found => findings.mem_iff.mpr ?_⟩
      exact List.mem_flatMap.mpr ⟨o, List.mem_append_right _ member, found⟩

end Run

theorem DiagnosticsCheck.finding_fatal (context : Context) {d : Diagnostic}
    (fatal : d.level = .fatal) :
    (DiagnosticsCheck.finding context d).severity = .error ∧
      (DiagnosticsCheck.finding context d).code = "runtime_fatal_error" := by
  simp only [DiagnosticsCheck.finding, fatal]
  exact ⟨rfl, rfl⟩

/-- Whatever else is in the record, an error that is not left out counts. -/
theorem Report.status_of_error {record : CheckRecord} {f : Finding} (found : f ∈ record.findings)
    (isError : f.severity = .error) (plugin : String) {filter : Report.Filter}
    (kept : filter.ignoreErrors = false) : (Report.ofRecord plugin record filter).status ≠ 0 := by
  have shown : f ∈ (Report.ofRecord plugin record filter).findings := by
    refine List.mem_filter.mpr ⟨found, ?_⟩
    simp [Filter.keeps, isError, kept]
  have counted : 0 < (Report.ofRecord plugin record filter).count .error :=
    List.countP_pos_iff.mpr ⟨f, shown, by simp [isError]⟩
  unfold status
  rw [if_pos counted]
  split <;> decide

/-- What comes of a runner that ends in time: in its load report, in the check of the host's
diagnostics by itself, and in every run with that check. -/
theorem Runner.failure_never_silent (r : Runner) {after : Nat} (inTime : after < r.timeoutMs)
    (exit : Exit) :
    (∀ durationMs, ∃ report, r.outcome durationMs (.ended after exit) = ⟨after, .ok report⟩ ∧
      (exit.status.isSuccess = true → report.diagnostics = toldDiagnostics exit) ∧
      (exit.status.isSuccess = false → report.isFatal = true ∧
        ((∃ d ∈ toldDiagnostics exit, d.level = .fatal) →
          report.diagnostics = toldDiagnostics exit) ∧
        ((∀ d ∈ toldDiagnostics exit, d.level ≠ .fatal) →
          report.diagnostics = toldDiagnostics exit ++ [exitDiagnostic exit]))) ∧
    ∀ {σ : Type} (host : Host σ), host.RunnerEnds r after exit →
      (∀ env world,
        let ended := (RuntimeCheck.diagnostics.body env.context env.namespaceName).run
          (Progress.Alone.answer host env) ⟨world, none, []⟩
        ended.1 = .passed ∧
        ended.2.found = (knownDiagnostics exit).map (DiagnosticsCheck.finding env.context) ∧
        (exit.status.isSuccess = false →
          ∃ f ∈ ended.2.found, f.severity = .error ∧ f.code = "runtime_fatal_error")) ∧
      ∀ settings conditions context tree checks world slug categories record,
        ⟨slug, categories, .runtime .diagnostics⟩ ∈ checks →
        (Run.run (some host) settings conditions context tree checks world).result = .ok record →
        (∀ d ∈ knownDiagnostics exit, DiagnosticsCheck.finding context d ∈ record.findings) ∧
        (exit.status.isSuccess = false →
          (∃ f ∈ record.findings, f.severity = .error ∧ f.code = "runtime_fatal_error") ∧
          ∀ plugin filter, filter.ignoreErrors = false →
            (Report.ofRecord plugin record filter).status ≠ 0) := by
  constructor
  · intro durationMs
    have known := report_diagnostics exit durationMs
    refine ⟨_, r.outcome_ended durationMs inTime exit, ?_, fun failed => ⟨?_, ?_, ?_⟩⟩
    · intro success
      rw [known, knownDiagnostics_of_success success]
    · obtain ⟨d, member, fatal⟩ := knownDiagnostics_fatal failed
      rw [Load.Report.isFatal, known]
      exact List.any_eq_true.mpr ⟨d, member, decide_eq_true fatal⟩
    · exact fun told => known.trans (knownDiagnostics_of_told told)
    · exact fun untold => known.trans (knownDiagnostics_of_untold failed untold)
  · intro σ host ends
    have reports := ends.reports inTime
    refine ⟨fun env world => ?_, ?_⟩
    · obtain ⟨passed, found⟩ := @Progress.run_diagnostics σ host env _ reports ⟨world, none, []⟩
        fun report loaded => by cases loaded
      refine ⟨passed, found, fun failed => ?_⟩
      obtain ⟨d, known, fatal⟩ := knownDiagnostics_fatal failed
      refine ⟨DiagnosticsCheck.finding env.context d, ?_,
        DiagnosticsCheck.finding_fatal env.context fatal⟩
      rw [found]
      exact List.mem_map_of_mem known
    · intro settings conditions context tree checks world slug categories record selected result
      obtain ⟨place, member⟩ := Run.mem_runtimeChecks selected
      obtain ⟨session, started, findings⟩ :=
        Run.run_ok_findings (List.ne_nil_of_mem member) result
      have found : ∀ d ∈ knownDiagnostics exit,
          DiagnosticsCheck.finding context d ∈ record.findings := by
        intro d known
        have outcome := @Progress.outcomes_diagnostics σ host
          ⟨session, context, settings.namespaceName conditions.id⟩ _ reports _ place slug member
          started none fun report loaded => by cases loaded
        exact findings _ outcome _ (List.mem_map_of_mem known)
      refine ⟨found, fun failed => ?_⟩
      obtain ⟨d, known, fatal⟩ := knownDiagnostics_fatal failed
      obtain ⟨isError, code⟩ := DiagnosticsCheck.finding_fatal context fatal
      exact ⟨⟨_, found d known, isError, code⟩, fun plugin filter kept =>
        Report.status_of_error (found d known) isError plugin kept⟩

/-- A runner that is killed in the midst of what it writes. -/
def Exit.killed : Exit := ⟨.signal 9, [0x7b, 0x22, 0xff], []⟩

/-- A host in memory whose runner is killed whenever it is started. -/
def Host.killing : Host (World MemoryStore) :=
  { MemoryStore.storage.host with
    load := fun _ _ w => ((⟨"php", [], [], 50⟩ : Runner).outcome 0 (.ended 3 .killed), w) }

/-- A run with nothing but the check of the host's diagnostics, whose runner is killed. -/
def Host.killedRun : RunReport (World MemoryStore) :=
  Run.run (some .killing) .initial ⟨"run1", [], none, false⟩ .sample ⟨.directory [], []⟩
    [⟨"runtime_load_errors", [], .runtime .diagnostics⟩] ⟨.initial false false, [], ⟨[], []⟩⟩

theorem Runner.failure_never_silent_killed :
    ∃ record, Host.killedRun.result = .ok record ∧
      (∃ f ∈ record.findings, f.severity = .error ∧ f.code = "runtime_fatal_error") ∧
      (Report.ofRecord "p" record ⟨false, false⟩).status ≠ 0 := by
  have returned : Host.killedRun.result.toOption.isSome = true := by decide +kernel
  cases result : Host.killedRun.result with
  | error e =>
    rw [result] at returned
    cases returned
  | ok record =>
    obtain ⟨-, told⟩ := @Runner.failure_never_silent ⟨"php", [], [], 50⟩ 3 (by decide) .killed
    obtain ⟨-, always⟩ := told Host.killing fun _ _ _ => ⟨0, rfl⟩
    obtain ⟨-, failed⟩ := always .initial ⟨"run1", [], none, false⟩ .sample ⟨.directory [], []⟩ _ _
      _ _ record List.mem_cons_self result
    exact ⟨record, rfl, (failed rfl).1, (failed rfl).2 "p" ⟨false, false⟩ rfl⟩

end PluginAudit
