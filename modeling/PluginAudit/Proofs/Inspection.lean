import PluginAudit.Command.Execution

/-!
The stages of an inspection. First the plugin and the checks to run on it are chosen, then the
checks run, and at last a report is made; each stage may end with a fault.
-/

namespace PluginAudit.Command

variable {m : Machine} {id : String} {request : CheckRequest} {colours : Bool}

section Errors

variable {ε ε' α : Type} {f : ε → ε'}

theorem mapError_ok {a : α} : (Except.ok a).mapError f = .ok a := rfl

theorem mapError_error {e : ε} : (Except.error e : Except ε α).mapError f = .error (f e) := rfl

/-- A function of a result changes nothing about an error. -/
theorem error_of_map {β : Type} {change : α → β} {x : Except ε α} {e : ε}
    (failed : x.map change = .error e) : x = .error e := by
  cases x with
  | error _ =>
    cases failed
    rfl
  | ok a => cases failed

end Errors

/-- The settings of the checks of a request. -/
def checkSettings (m : Machine) (request : CheckRequest) : Except Fault CheckSettings :=
  CheckSettings.resolve request.versions request.showAllWarnings request.ignoredWarnings m.tree

/-- The plugin that a request asks for, and the checks that it selects. -/
def chosen (m : Machine) (request : CheckRequest) : Except Fault (Context × List Check) := do
  let settings ← checkSettings m request
  let context ←
    (Discovery.discover m.tree request.path).mapError (NoPlugin.fault request.path)
  let checks ← ((Registry.bundled settings).select request.selection).mapError fun e =>
    .ofCauses e.message []
  return (context, checks)

variable {settings : CheckSettings} {context : Context}

theorem chosen_unsettled {fault : Fault} (unsettled : checkSettings m request = .error fault) :
    chosen m request = .error fault := by
  simp only [chosen, unsettled, bind, Except.bind]

theorem chosen_unfound {e : NoPlugin} (settled : checkSettings m request = .ok settings)
    (unfound : Discovery.discover m.tree request.path = .error e) :
    chosen m request = .error (e.fault request.path) := by
  simp only [chosen, settled, unfound, bind, Except.bind, mapError_error]

theorem chosen_found (settled : checkSettings m request = .ok settings)
    (found : Discovery.discover m.tree request.path = .ok context) :
    chosen m request = match (Registry.bundled settings).select request.selection with
      | .ok checks => .ok (context, checks)
      | .error e => .error (.ofCauses e.message []) := by
  simp only [chosen, settled, found, bind, Except.bind, mapError_ok]
  cases (Registry.bundled settings).select request.selection <;> rfl

/-- The three ways of the choice. -/
theorem chosen_cases (m : Machine) (request : CheckRequest) :
    (∃ fault, checkSettings m request = .error fault ∧ chosen m request = .error fault) ∨
    (∃ e, Discovery.discover m.tree request.path = .error e ∧
      chosen m request = .error (NoPlugin.fault request.path e)) ∨
    ∃ settings context, checkSettings m request = .ok settings ∧
      Discovery.discover m.tree request.path = .ok context ∧
      chosen m request = match (Registry.bundled settings).select request.selection with
        | .ok checks => .ok (context, checks)
        | .error e => .error (.ofCauses e.message []) := by
  cases settled : checkSettings m request with
  | error fault => exact .inl ⟨fault, rfl, chosen_unsettled settled⟩
  | ok settings =>
    cases found : Discovery.discover m.tree request.path with
    | error e => exact .inr (.inl ⟨e, rfl, chosen_unfound settled found⟩)
    | ok context => exact .inr (.inr ⟨settings, context, rfl, rfl, chosen_found settled found⟩)

/-- What the checks of a request find, before any of it is left out. -/
def recorded (m : Machine) (id : String) (request : CheckRequest) :
    Except Fault (Context × CheckRecord) :=
  (chosen m request).bind fun (context, checks) =>
    (runChecks m id request context checks).map fun record => (context, record)

theorem inspect_eq : inspect m id request = (recorded m id request).map
    fun (context, record) => .ofRecord context.slug record request.filter := by
  simp only [inspect, recorded, chosen, checkSettings, bind, Except.bind]
  cases CheckSettings.resolve request.versions request.showAllWarnings request.ignoredWarnings
    m.tree with
  | error fault => rfl
  | ok settings =>
    cases Discovery.discover m.tree request.path with
    | error fault => rfl
    | ok context =>
      simp only [mapError_ok]
      cases (Registry.bundled settings).select request.selection with
      | error e => rfl
      | ok checks =>
        simp only [mapError_ok, pure, Except.pure]
        cases runChecks m id request context checks <;> rfl

/-- A fault is told on the error output alone. -/
theorem execute_eq : execute m id colours (.check request) =
    match recorded m id request with
    | .ok (context, record) =>
      let report := Report.ofRecord context.slug record request.filter
      ⟨report.status, report.render colours request.format ++ "\n", ""⟩
    | .error fault => ⟨fault.status, "", "Error: " ++ fault.text ++ "\n"⟩ := by
  rw [execute, inspect_eq]
  cases recorded m id request <;> rfl

end PluginAudit.Command
