import PluginAudit.FileTree

/-!
Starting a program: what it is given, and what comes of it.
-/

namespace PluginAudit

structure Launch where
  program : String
  args : List String
  /-- The whole environment, in ascending order of the names. -/
  environment : List (String × String)
  directory : Path

inductive ExitStatus where
  | code (n : Nat)
  | signal (n : Nat) (dumpedCore : Bool := false)
deriving DecidableEq

namespace ExitStatus

/-- The signals 1, 2, … by their names. -/
def signalNames : List String := [
  "SIGHUP", "SIGINT", "SIGQUIT", "SIGILL", "SIGTRAP", "SIGABRT", "SIGBUS", "SIGFPE", "SIGKILL",
  "SIGUSR1", "SIGSEGV", "SIGUSR2", "SIGPIPE", "SIGALRM", "SIGTERM", "SIGSTKFLT", "SIGCHLD",
  "SIGCONT", "SIGSTOP", "SIGTSTP", "SIGTTIN", "SIGTTOU", "SIGURG", "SIGXCPU", "SIGXFSZ",
  "SIGVTALRM", "SIGPROF", "SIGWINCH", "SIGIO", "SIGPWR", "SIGSYS"]

def signalName? (n : Nat) : Option String :=
  match n with
  | 0 => none
  | n + 1 => signalNames[n]?

def text : ExitStatus → String
  | .code n => "exit status: " ++ n.repr
  | .signal n dumpedCore =>
    "signal: " ++ n.repr ++ ((signalName? n).elim "" fun name => " (" ++ name ++ ")") ++
      if dumpedCore then " (core dumped)" else ""

def isSuccess (s : ExitStatus) : Bool := s = .code 0

end ExitStatus

structure Exit where
  status : ExitStatus
  output : Text.Bytes
  errors : Text.Bytes

inductive LaunchError where
  | file (cause : FileError)
  | nulInData
  | tooLong
deriving DecidableEq

def LaunchError.message : LaunchError → String
  | .file cause => cause.message
  | .nulInData => "nul byte found in provided data"
  | .tooLong => "Argument list too long (os error 7)"

/-- What comes of a launch; a program ends after some milliseconds. -/
inductive Execution where
  | refused (cause : LaunchError)
  | ended (after : Nat) (exit : Exit)

end PluginAudit
