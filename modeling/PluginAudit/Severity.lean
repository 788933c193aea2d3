import PluginAudit.Text.Ascii
import PluginAudit.Text.Blank

/-!
Causes for which a value of the domain is refused, and the severity of a finding.
-/

namespace PluginAudit

inductive ValueError where
  | invalidSeverity (text : String)
  | invalidContext (reason : String)
  | duplicateCheck (slug : String)
  | unknownChecks (slugs : List String)
  | invalidValue (reason : String)
deriving DecidableEq

def ValueError.message : ValueError → String
  | .invalidSeverity s => "Invalid severity: " ++ s ++ " (expected ERROR or WARNING)"
  | .invalidContext s => "Invalid check context: " ++ s
  | .duplicateCheck s => "Check already registered: " ++ s
  | .unknownChecks ss => "Unknown check(s): " ++ String.intercalate ", " ss
  | .invalidValue s => "Validation error: " ++ s

inductive Severity where
  | error
  | warning
deriving DecidableEq

namespace Severity

def text : Severity → String
  | .error => "ERROR"
  | .warning => "WARNING"

/-- Blanks around the word and the case of its letters do not matter. -/
def ofText (text : String) : Except ValueError Severity :=
  let word := Text.asciiUpper (Text.trim text.toList)
  if word = Severity.error.text.toList then .ok .error
  else if word = Severity.warning.text.toList then .ok .warning
  else .error (.invalidSeverity text)

end Severity

end PluginAudit
