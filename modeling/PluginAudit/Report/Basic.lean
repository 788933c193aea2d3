import PluginAudit.Finding
import PluginAudit.Json.Writer
import PluginAudit.Report.Grid
import PluginAudit.Report.Paint

/-!
The report of a run: the findings that a filter keeps, the checks that failed, and the exit status
that follows from both.
-/

namespace PluginAudit

/-- Which severities are left out of a report. -/
structure Report.Filter where
  ignoreErrors : Bool
  ignoreWarnings : Bool

def Report.Filter.keeps (filter : Report.Filter) (f : Finding) : Bool :=
  match f.severity with
  | .error => !filter.ignoreErrors
  | .warning => !filter.ignoreWarnings

inductive Report.Format where
  | table
  | json
deriving DecidableEq

namespace Report.Format

def text : Report.Format → String
  | .table => "table"
  | .json => "json"

def all : List Report.Format := [.table, .json]

def ofText? (text : String) : Option Report.Format := all.find? (·.text == text)

end Report.Format

structure Report where
  plugin : String
  findings : List Finding
  failures : List Failure

namespace Report

def ofRecord (plugin : String) (record : CheckRecord) (filter : Report.Filter) : Report :=
  ⟨plugin, record.findings.filter filter.keeps, record.failures⟩

def count (r : Report) (s : Severity) : Nat := r.findings.countP (·.severity = s)

/-- Failed checks weigh more than errors. -/
def status (r : Report) : Nat :=
  if !r.failures.isEmpty then 2 else if 0 < r.count .error then 1 else 0

def findingJson (f : Finding) : Json := .obj [
  ("code", .str f.code),
  ("message", .str f.message),
  ("severity", .str f.severity.text),
  ("file", .str f.file),
  ("line", .ofNat f.line),
  ("column", .ofNat f.column)]

def failureJson (f : Failure) : Json := .obj [("check", .str f.check), ("reason", .str f.reason)]

def toJson (r : Report) : Json := .obj [
  ("plugin", .str r.plugin),
  ("error_count", .ofNat (r.count .error)),
  ("warning_count", .ofNat (r.count .warning)),
  ("findings", .arr (r.findings.map findingJson)),
  ("failed_checks", .arr (r.failures.map failureJson))]

def findingColumns : List String := ["file", "line", "column", "type", "code", "message"]

def findingCells (f : Finding) : List String :=
  [f.file, f.line.repr, f.column.repr, f.severity.text, f.code, f.message]

def findingsText (colours : Bool) (findings : List Finding) : String :=
  if findings.isEmpty then Paint.boldGreen.apply colours "✓ No issues found"
  else Grid.render (findingColumns :: findings.map findingCells)

def failureText (colours : Bool) (f : Failure) : String :=
  Paint.boldRed.apply colours "✗ Check failed" ++ " " ++ f.check ++ ": " ++ f.reason ++ "\n"

def countText (colours : Bool) (title : String) (paint : Paint) (n : Nat) : String :=
  "  " ++ Paint.bold.apply colours title ++ " " ++ paint.apply colours n.repr ++ "\n"

/-- The report for a reader: the findings in a grid, the failed checks, and two counts. -/
def toText (colours : Bool) (r : Report) : String :=
  Paint.boldCyan.apply colours ("Plugin: " ++ r.plugin) ++ "\n\n" ++
    findingsText colours r.findings ++ "\n" ++ String.join (r.failures.map (failureText colours)) ++
    "\n" ++ countText colours "Errors:" .red (r.count .error) ++
    countText colours "Warnings:" .yellow (r.count .warning)

def render (colours : Bool) (format : Report.Format) (r : Report) : String :=
  match format with
  | .table => r.toText colours
  | .json => r.toJson.pretty

end Report

end PluginAudit
