import PluginAudit.Entries
import PluginAudit.Severity

/-!
Findings, and the record that collects them. The record keeps findings by file, line and column,
and the findings of one place in the order in which they were added. Checks that could not run
are recorded beside them and never counted.
-/

namespace PluginAudit

/-- A reported issue. Lines and columns count from one; zero stands for none. -/
structure Finding where
  code : String
  message : String
  severity : Severity
  file : String
  line : Nat
  column : Nat
deriving DecidableEq

namespace Finding

def error (code message : String) : Finding := ⟨code, message, .error, "", 0, 0⟩

def warning (code message : String) : Finding := ⟨code, message, .warning, "", 0, 0⟩

def within (f : Finding) (file : String) : Finding := { f with file }

def atPlace (f : Finding) (line column : Nat) : Finding := { f with line, column }

end Finding

structure Failure where
  check : String
  reason : String
deriving DecidableEq

/-- Column, then findings in order of arrival; ascending in the columns. -/
abbrev Columns := List (Nat × List Finding)

/-- Line, then columns; ascending in the lines. -/
abbrev Lines := List (Nat × Columns)

/-- File, then lines; ascending in the files. -/
abbrev Files := List (String × Lines)

namespace Files

def add (files : Files) (f : Finding) : Files :=
  Entries.update Entries.textLess f.file (fun lines =>
    Entries.update Entries.natLess f.line (fun columns =>
      Entries.update Entries.natLess f.column (fun found => found.getD [] ++ [f])
        (columns.getD []))
      (lines.getD []))
    files

def toList (files : Files) : List Finding :=
  files.flatMap fun (_, lines) => lines.flatMap fun (_, columns) => columns.flatMap (·.2)

/-- Keeps the entries that `shrink` leaves something of. -/
def prune {κ α β : Type} (shrink : α → List β) (entries : List (κ × α)) : List (κ × List β) :=
  entries.filterMap fun (k, v) =>
    match shrink v with
    | [] => none
    | w => some (k, w)

/-- The findings of one severity, without the places that have none. -/
def withSeverity (s : Severity) (files : Files) : Files :=
  prune (prune (prune (List.filter (·.severity = s)))) files

end Files

structure CheckRecord where
  files : Files
  failures : List Failure

namespace CheckRecord

def empty : CheckRecord := ⟨[], []⟩

def add (r : CheckRecord) (f : Finding) : CheckRecord := { r with files := r.files.add f }

def addAll (r : CheckRecord) (fs : List Finding) : CheckRecord := fs.foldl add r

def fail (r : CheckRecord) (check reason : String) : CheckRecord :=
  { r with failures := r.failures ++ [⟨check, reason⟩] }

def findings (r : CheckRecord) : List Finding := r.files.toList

def errors (r : CheckRecord) : Files := r.files.withSeverity .error

def warnings (r : CheckRecord) : Files := r.files.withSeverity .warning

def count (r : CheckRecord) (s : Severity) : Nat := r.findings.countP (·.severity = s)

def errorCount (r : CheckRecord) : Nat := r.count .error

def warningCount (r : CheckRecord) : Nat := r.count .warning

def anyFailed (r : CheckRecord) : Bool := !r.failures.isEmpty

end CheckRecord

/-- Codes that are dropped before they are recorded. Choosing no codes is not the same as
choosing nothing: without a choice the defaults apply. -/
structure IgnoredCodes where
  defaults : List String
  chosen : Option (List String)

def IgnoredCodes.ignores (l : IgnoredCodes) (code : String) : Bool :=
  (l.chosen.getD l.defaults).contains code

end PluginAudit
