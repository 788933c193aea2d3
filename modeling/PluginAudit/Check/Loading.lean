import PluginAudit.Check.Basic

/-!
The two checks that look at the loading of a plugin: one for the host's diagnostics, one for calls
of functions that change the server's configuration.
-/

namespace PluginAudit

namespace DiagnosticsCheck

def preparationName : String := "debug_reporting"

def reportingOption : String := "plugin_check_error_reporting"

def finding (context : Context) (d : Diagnostic) : Finding :=
  let (file, line) := context.place d.file d.line
  let found :=
    match d.level with
    | .fatal => Finding.error "runtime_fatal_error" d.message
    | .warning => Finding.warning "runtime_warning" d.message
    | .notice => Finding.warning "runtime_notice" d.message
    | .deprecated => Finding.warning "runtime_deprecated" d.message
  (found.within file).atPlace line 0

def findings (context : Context) (report : Load.Report) : List Finding :=
  report.diagnostics.map (finding context)

end DiagnosticsCheck

namespace CallsCheck

def defaultFunctions : List String :=
  ["error_reporting", "ini_set", "set_time_limit", "ini_alter", "dl", "create_function"]

/-- Whether a call is the plugin's own and of a function that is not allowed. -/
def isDisallowed (functions : List String) (context : Context) (c : ObservedCall) : Bool :=
  context.owns c.file && functions.any (·.sameIgnoringCase c.function)

def finding (context : Context) (c : ObservedCall) : Finding :=
  let (file, line) := context.place c.file c.line
  ((Finding.error "disallowed_function_call" (c.function ++ "() was called while the plugin " ++
    "loaded. Plugins must not change the server configuration.")).within file).atPlace line 0

def findings (functions : List String) (context : Context) (report : Load.Report) :
    List Finding :=
  (report.calls.filter (isDisallowed functions context)).map (finding context)

end CallsCheck

namespace RuntimeCheck

def emitAll : List Finding → Program checkCalls Ending
  | [] => pure .passed
  | f :: rest => .ask (.emit f) fun () => emitAll rest

/-- Has the plugin loaded and reports what `findings` makes of that. -/
def onLoad (findings : Load.Report → List Finding) : Program checkCalls Ending :=
  .ask .load fun
    | .ok report => emitAll (findings report)
    | .error e => pure (.failed (.host e))

def diagnostics : RuntimeCheck where
  preparations := fun _ =>
    [Preparation.overriding DiagnosticsCheck.preparationName
      [(DiagnosticsCheck.reportingOption, .str "E_ALL")]]
  body := fun context _ => onLoad (DiagnosticsCheck.findings context)

def calls (functions : List String) : RuntimeCheck where
  preparations := fun _ => []
  body := fun context _ => onLoad (CallsCheck.findings functions context)

end RuntimeCheck

end PluginAudit
