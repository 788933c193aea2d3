import PluginAudit.Check.ImageMarkup
import PluginAudit.Check.Loading
import PluginAudit.Check.Readme
import PluginAudit.Check.Registry

/-!
The bundled checks and what they can be told.
-/

namespace PluginAudit

structure CheckSettings where
  readme : ReadmeCheck.Settings
  /-- Functions that a plugin may not call while it is loaded. -/
  disallowed : List String

namespace CheckSettings

def defaultLatest : String := "6.7.1"

def initial : CheckSettings where
  readme := ⟨.ofLatest defaultLatest, none⟩
  disallowed := CallsCheck.defaultFunctions

end CheckSettings

namespace Registry

def bundledChecks (settings : CheckSettings) : List Check := [
  ⟨"plugin_readme", [.pluginRepo], .static (ReadmeCheck.run settings.readme)⟩,
  ⟨"image_functions", [.performance], .static ImageCheck.run⟩,
  ⟨"runtime_load_errors", [.general], .runtime .diagnostics⟩,
  ⟨"disallowed_runtime_calls", [.security], .runtime (.calls settings.disallowed)⟩]

def ofChecks (checks : List Check) : Registry := ⟨Entries.ofList (checks.map fun c => (c.slug, c))⟩

def bundled (settings : CheckSettings) : Registry := ofChecks (bundledChecks settings)

end Registry

end PluginAudit
