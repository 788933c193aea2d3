import PluginAudit.Report.Basic
import PluginAudit.Settings
import PluginAudit.Text.Natural

/-!
The arguments of the command line. Options are written `--name value` or `--name=value`; some of
them may be given by variables of the environment instead. A command line that does not fit is
refused as a whole.
-/

namespace PluginAudit

/-- What the inspection of a plugin is told. -/
structure CheckRequest where
  path : Path
  selection : Selection
  format : Report.Format
  filter : Report.Filter
  ignoredWarnings : List String
  showAllWarnings : Bool
  hostDatabase : String
  runner : Option String
  timeoutSecs : Option Nat
  maxParallel : Nat
  versions : ReleaseSource

inductive HelpTopic where
  | program
  | check
  | listChecks
  | help

inductive Command where
  | version
  | help (topic : HelpTopic)
  | listChecks
  | check (request : CheckRequest)

namespace Command

inductive OptionKind where
  /-- Without a value, at most once. -/
  | flag
  /-- With a value, at most once. -/
  | single
  /-- With a value each time. -/
  | many
deriving DecidableEq

def options : List (String × OptionKind) := [
  ("checks", .many), ("exclude-checks", .many), ("categories", .many), ("format", .single),
  ("ignore-warnings", .flag), ("ignore-errors", .flag), ("ignore-readme-warning", .many),
  ("show-all-readme-warnings", .flag), ("host-db", .single), ("runner", .single),
  ("timeout-secs", .single), ("max-parallel", .single), ("wp-version", .single),
  ("version-check-file", .single), ("recommended-php", .single)]

/-- The variables that stand for options. -/
def optionVariables : List (String × String) := [
  ("host-db", "PLUGIN_CHECK_HOST_DB"), ("runner", "PLUGIN_CHECK_RUNNER"),
  ("timeout-secs", "PLUGIN_CHECK_TIMEOUT_SECS"), ("max-parallel", "PLUGIN_CHECK_MAX_PARALLEL"),
  ("wp-version", "PLUGIN_CHECK_WP_VERSION"),
  ("version-check-file", "PLUGIN_CHECK_VERSION_CHECK_FILE"),
  ("recommended-php", "PLUGIN_CHECK_RECOMMENDED_PHP")]

/-- Arguments as they have been read: options with their values, and what is no option. -/
structure Given where
  values : List (String × String)
  operands : List String
  /-- The option whose value comes next. -/
  pending : Option String
  /-- Whether no more options follow. -/
  closed : Bool
  /-- Whether help is asked for; what follows then counts for nothing. -/
  helped : Bool

def isShort (letter : Char) (a : String) : Bool := Text.startsWith ['-', letter] a.toList

def asksHelp (a : String) : Bool := a == "--help" || isShort 'h' a

def asksVersion (a : String) : Bool := a == "--version" || isShort 'V' a

namespace Given

def empty : Given := ⟨[], [], none, false, false⟩

def add (g : Given) (name value : String) : Given :=
  { g with values := g.values ++ [(name, value)], pending := none }

def addOperand (g : Given) (a : String) : Given := { g with operands := g.operands ++ [a] }

/-- A single hyphen is a value like any other. -/
def isOption (a : String) : Bool := a.toList.head? == some '-' && a != "-"

/-- Reads an option, its two hyphens left out. -/
def addOption (g : Given) (text : List Char) : Option Given :=
  match Text.splitOnce '=' text with
  | some (name, value) =>
    match options.lookup (.ofList name) with
    | some .single | some .many => some (g.add (.ofList name) (.ofList value))
    | _ => none
  | none =>
    match options.lookup (.ofList text) with
    | some .flag => some (g.add (.ofList text) "")
    | some _ => some { g with pending := some (.ofList text) }
    | none => none

def read (g : Given) (a : String) : Option Given :=
  if g.helped then some g
  else if g.closed then some (g.addOperand a)
  else
    match g.pending with
    | some name => if isOption a then none else some (g.add name a)
    | none =>
      if a = "--" then some { g with closed := true }
      else if asksHelp a then some { g with helped := true }
      else
        match Text.after? ['-', '-'] a.toList with
        | some text => g.addOption text
        | none => if isOption a then none else some (g.addOperand a)

def all (g : Given) (name : String) : List String :=
  g.values.filterMap fun (n, v) => if n = name then some v else none

def has (g : Given) (name : String) : Bool := !(g.all name).isEmpty

/-- Whether only those options are repeated that may be. -/
def isRegular (g : Given) : Bool :=
  options.all fun (name, kind) => kind == .many || (g.all name).length ≤ 1

/-- The value of an option, or of the variable that stands for it. -/
def value? (g : Given) (environment : List (String × String)) (name : String) : Option String :=
  (g.all name).head?.or ((optionVariables.lookup name).bind (environment.lookup ·))

/-- The values of an option that takes lists with commas between their members. -/
def listed (g : Given) (name : String) : List String :=
  (g.all name).flatMap fun v => (Text.splitAt ',' v.toList).map .ofList

end Given

def readIfGiven {α : Type} (read : String → Option α) : Option String → Option (Option α)
  | none => some none
  | some text => (read text).map some

def path? (text : String) : Option Path := if text.isEmpty then none else some ⟨text⟩

def number? (text : String) : Option Nat := Text.natural? 0x10000000000000000 text.toList

/-- Whether what has been read is well formed, as far as it goes. -/
def Given.fits (g : Given) : Bool :=
  g.isRegular && g.pending.isNone && g.operands.length ≤ 1 && g.operands.all (!·.isEmpty) &&
    (g.listed "categories").all (fun s => (Category.ofText s).toOption.isSome) &&
    (g.all "format").all (fun s => (Report.Format.ofText? s).isSome) &&
    (g.all "timeout-secs" ++ g.all "max-parallel").all (fun s => (number? s).isSome) &&
    (g.all "version-check-file").all (!·.isEmpty)

def checkRequest? (environment : List (String × String)) (g : Given) : Option CheckRequest := do
  let value := g.value? environment
  let path ← match g.operands with
    | [operand] => path? operand
    | _ => none
  let categories ← (g.listed "categories").mapM fun c => (Category.ofText c).toOption
  let format ← readIfGiven Report.Format.ofText? (value "format")
  let timeoutSecs ← readIfGiven number? (value "timeout-secs")
  let maxParallel ← readIfGiven number? (value "max-parallel")
  let file ← readIfGiven path? (value "version-check-file")
  if g.pending.isSome || !g.isRegular ||
      (g.has "show-all-readme-warnings" && g.has "ignore-readme-warning") then none
  else
    return {
      path
      selection := ⟨g.listed "checks", g.listed "exclude-checks", categories⟩
      format := format.getD .table
      filter := ⟨g.has "ignore-errors", g.has "ignore-warnings"⟩
      ignoredWarnings := g.all "ignore-readme-warning"
      showAllWarnings := g.has "show-all-readme-warnings"
      hostDatabase := (value "host-db").getD HostDatabase.defaultFile
      runner := value "runner"
      timeoutSecs
      maxParallel := maxParallel.getD RunSettings.initial.maxParallel
      versions := ⟨file, value "wp-version", value "recommended-php"⟩ }

def ofGiven? (environment : List (String × String)) (g : Given) : Option Command :=
  if g.helped then (if g.fits then some (.help .check) else none)
  else (checkRequest? environment g).map .check

def ofListArguments? : List String → Option Command
  | [] | ["--"] => some .listChecks
  | a :: _ => if asksHelp a then some (.help .listChecks) else none

def helpTopic? : List String → Option HelpTopic
  | [] => some .program
  | ["check"] => some .check
  | ["list-checks"] => some .listChecks
  | ["help"] => some .help
  | _ => none

def ofArguments? (environment : List (String × String)) : List String → Option Command
  | "list-checks" :: args => ofListArguments? args
  | "check" :: args => (args.foldlM Given.read .empty).bind (ofGiven? environment)
  | "help" :: args => (helpTopic? args).map .help
  | a :: _ =>
    if asksVersion a then some .version else if asksHelp a then some (.help .program) else none
  | [] => none

end Command

end PluginAudit
