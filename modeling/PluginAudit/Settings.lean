import PluginAudit.Check.Bundled
import PluginAudit.Run.Basic

/-!
The settings of a command: where the latest version of the host software comes from, which
warnings are left out, how a run is limited, and where the host's database is.
-/

namespace PluginAudit

/-- Why a command is given up, and what that is due to, the outermost cause first. -/
structure Fault where
  message : String
  causes : List String
  status : Nat

namespace Fault

def ofCauses (message : String) (causes : List String) : Fault := ⟨message, causes, 1⟩

def numbered (cause : String) (n : Nat) : String :=
  let number := n.repr
  String.ofList (List.replicate (5 - number.length) ' ') ++ number ++ ": " ++
    String.ofList (Text.joinWith "\n       ".toList (Text.splitAt '\n' cause.toList))

def causesText : List String → String
  | [] => ""
  | [cause] => "\n\nCaused by:\n    " ++
    String.ofList (Text.joinWith "\n    ".toList (Text.splitAt '\n' cause.toList))
  | causes => "\n\nCaused by:\n" ++
    String.intercalate "\n" (causes.zipIdx.map fun (c, n) => numbered c n)

def text (f : Fault) : String := f.message ++ causesText f.causes

end Fault

/-- Where the latest version comes from. A file with the answer of a version check is preferred to
a given version, and that to the default. -/
structure ReleaseSource where
  file : Option Path
  version : Option String
  php : Option String

namespace ReleaseSource

def ofFile (tree : FileTree) (path : Path) : Except Fault ReleaseInfo :=
  match tree.readText path with
  | .error e => .error (.ofCauses ("Failed to read version-check file " ++ path.text) [e.message])
  | .ok body =>
    match ReleaseInfo.ofBody? (.ofList body) with
    | some info => .ok info
    | none => .error (.ofCauses ("Invalid version-check response in " ++ path.text)
        ["the text is no answer of a version check"])

def given (s : ReleaseSource) : ReleaseInfo :=
  .ofLatest (s.version.getD CheckSettings.defaultLatest)

/-- A file that names no version counts for nothing. -/
def resolve (s : ReleaseSource) (tree : FileTree) : Except Fault ReleaseInfo :=
  match s.file with
  | none => .ok (s.given.recommending s.php)
  | some path =>
    (ofFile tree path).map fun info =>
      (if info.latest.isSome then info else s.given).recommending s.php

end ReleaseSource

/-- Which warnings of a readme are left out: none at all, the named ones, or the defaults. -/
def CheckSettings.ignoredWarnings (showAll : Bool) (named : List String) : Option (List String) :=
  if showAll then some [] else if named.isEmpty then none else some named

def CheckSettings.resolve (source : ReleaseSource) (showAll : Bool) (ignored : List String)
    (tree : FileTree) : Except Fault CheckSettings :=
  (source.resolve tree).map fun versions =>
    { CheckSettings.initial with readme := ⟨versions, ignoredWarnings showAll ignored⟩ }

/-- At least one check runs at a time; the time limit is given in seconds. -/
def RunSettings.limited (maxParallel : Nat) (timeoutSecs : Option Nat) : RunSettings :=
  { RunSettings.initial with
    maxParallel := max maxParallel 1
    timeout := timeoutSecs.map (· * 1000) }

namespace HostDatabase

def defaultFile : String := "~/.plugin-check/host.db"

def baseNamespace : String := "wp_"

/-- A path with the home directory in the place of a tilde that is its first name. -/
def expand (home : Option String) (file : String) : String :=
  match file.toList, home with
  | ['~'], some h => h
  | '~' :: '/' :: r, some h => h ++ "/" ++ .ofList r
  | _, _ => file

def makeDirectory (file : String) (tree : FileTree) : Except Fault FileTree :=
  match Path.parent ⟨file⟩ with
  | none => .ok tree
  | some above =>
    if above.text.isEmpty then .ok tree
    else
      match tree.makeDirectories above with
      | .ok tree => .ok tree
      | .error e => .error (.ofCauses ("Failed to create " ++ above.text) [e.message])

/-- The address of the database in a file, and the files with its directory. -/
def address (home : Option String) (file : String) (tree : FileTree) :
    Except Fault (String × FileTree) :=
  let expanded := expand home file
  (makeDirectory expanded tree).map fun tree => ("sqlite://" ++ expanded, tree)

end HostDatabase

end PluginAudit
