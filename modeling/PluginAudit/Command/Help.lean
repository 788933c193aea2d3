import PluginAudit.Command.Arguments

/-!
The help texts of the command line. A list of options has each option on a line of its own, and on
the next line what it does, the variable that stands for it, its default, and its values.
-/

namespace PluginAudit.Command

def programName : String := "plugin-check"

/-- A text of help: what is explained, how it is used, and lists under headings. -/
def helpPage (about usage : String) (sections : List (String × List String)) : String :=
  about ++ "\n\nUsage: " ++ programName ++ usage ++ "\n" ++
    String.join (sections.map fun (heading, lines) =>
      "\n" ++ heading ++ ":\n" ++ String.join (lines.map fun line => "  " ++ line ++ "\n"))

def checkAbout : String := "Run checks against a plugin directory or single-file plugin"

def listAbout : String := "List the available checks"

def helpAbout : String := "Print this message or the help of the given subcommand(s)"

def programHelp : String :=
  helpPage "Check a WordPress plugin for common problems" " <COMMAND>" [
    ("Commands", [
      "check        " ++ checkAbout, "list-checks  " ++ listAbout, "help         " ++ helpAbout]),
    ("Options", ["-h, --help     Print help", "-V, --version  Print version"])]

def listHelp : String := helpPage listAbout " list-checks" [("Options", ["-h, --help  Print help"])]

def helpHelp : String :=
  helpPage helpAbout " help [COMMAND]..."
    [("Arguments", ["[COMMAND]...  Print help for the subcommand(s)"])]

def optionAbouts : List (String × String) := [
  ("checks", "Only run these checks (comma separated slugs)"),
  ("exclude-checks", "Never run these checks"),
  ("categories", "Only run checks in these categories"),
  ("ignore-warnings", "Leave warnings out of the report"),
  ("ignore-errors", "Leave errors out of the report"),
  ("ignore-readme-warning", "Readme parser warning to suppress (replaces the default list)"),
  ("show-all-readme-warnings", "Report every readme parser warning"),
  ("host-db", "Host database holding the site options"),
  ("runner", "Host runner command; runtime checks are skipped without one"),
  ("timeout-secs", "Limit for the check phase in seconds"),
  ("max-parallel", "Static checks running at the same time"),
  ("wp-version", "Latest WordPress release"),
  ("version-check-file",
    "Saved version-check API response (takes precedence over --wp-version)"),
  ("recommended-php", "Recommended PHP version quoted in readme advice (default 7.4)")]

def optionDefaults : List (String × String) := [
  ("format", "table"), ("host-db", HostDatabase.defaultFile),
  ("max-parallel", RunSettings.initial.maxParallel.repr)]

def valueName (name : String) : String :=
  if name = "ignore-readme-warning" then "CODE"
  else name.map fun c => if c = '-' then '_' else c.toUpper

def optionSpelling (name : String) (kind : OptionKind) : String :=
  "    --" ++ name ++ (if kind = .flag then "" else " <" ++ valueName name ++ ">")

/-- What is said about an option, with the value that its variable has. -/
def optionNotes (environment : List (String × String)) (name : String) : List String :=
  (optionAbouts.lookup name).toList ++
    ((optionVariables.lookup name).map fun v =>
      "[env: " ++ v ++ "=" ++ (environment.lookup v).getD "" ++ "]").toList ++
    ((optionDefaults.lookup name).map fun d => "[default: " ++ d ++ "]").toList ++
    (if name = "format" then ["[possible values: table, json]"] else [])

def checkHelp (environment : List (String × String)) : String :=
  helpPage checkAbout " check [OPTIONS] <PATH>" [
    ("Arguments", ["<PATH>  Plugin directory or main PHP file"]),
    ("Options",
      (options.flatMap fun (name, kind) =>
        [optionSpelling name kind,
          "        " ++ String.intercalate " " (optionNotes environment name)]) ++
      ["-h, --help", "        Print help"])]

def helpText (environment : List (String × String)) : HelpTopic → String
  | .program => programHelp
  | .check => checkHelp environment
  | .listChecks => listHelp
  | .help => helpHelp

end PluginAudit.Command
