/-!
Causes for which the host refuses a call, and the names that a storage namespace may have.
-/

namespace PluginAudit

inductive HostRefusal where
  | namespaces (reason : String)
  | options (reason : String)
  | load (reason : String)
  | spawn (reason : String)
  | timeout (milliseconds : Nat)
  | connection (reason : String)
  | io (reason : String)
deriving DecidableEq

def HostRefusal.message : HostRefusal → String
  | .namespaces s => "Storage namespace error: " ++ s
  | .options s => "Option store error: " ++ s
  | .load s => "Plugin load failed: " ++ s
  | .spawn s => "Host spawn failed: " ++ s
  | .timeout n => "Host timed out after " ++ n.repr ++ "ms"
  | .connection s => "Host connection error: " ++ s
  | .io s => "IO error: " ++ s

namespace Namespace

/-- Names consist of ASCII letters, digits and underscores. -/
def isNameChar (c : Char) : Bool := c.isAlphanum || c == '_'

def check (name : String) : Except HostRefusal Unit :=
  if name.isEmpty then .error (.namespaces "prefix cannot be empty")
  else if name.toList.all isNameChar then .ok ()
  else .error (.namespaces ("prefix must be alphanumeric or underscore: " ++ name))

end Namespace

end PluginAudit
