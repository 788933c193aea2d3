import PluginAudit.Path
import PluginAudit.Severity

/-!
The target of an inspection: a plugin in a directory of its own, or one that is a single file.
-/

namespace PluginAudit

structure Context where
  mainFile : Path
  root : Path
  slug : String
  basename : String
  files : List Path
  singleFile : Bool

namespace Context

def rootOf (main : Path) : Except ValueError Path :=
  if !main.isAbsolute then
    .error (.invalidContext ("main file must be an absolute path: " ++ main.text))
  else
    match main.parent with
    | some p => .ok p
    | none => .error (.invalidContext ("no parent: " ++ main.text))

def nameOf (path : Path) : Except ValueError String :=
  match path.fileName with
  | some n => .ok n
  | none => .error (.invalidContext ("no file name: " ++ path.text))

/-- Inserts into an ascending list, before the paths equal to the new one. -/
def insertPath (p : Path) : List Path → List Path
  | [] => [p]
  | q :: rest => if q.less p then q :: insertPath p rest else p :: q :: rest

def sortPaths (paths : List Path) : List Path := paths.foldr insertPath []

/-- Of paths that are equal in their components the first is kept. -/
def dropRepeats : List Path → List Path
  | [] => []
  | [p] => [p]
  | p :: q :: rest =>
    if p.same q then
      match dropRepeats (q :: rest) with
      | [] => [p]
      | _ :: later => p :: later
    else p :: dropRepeats (q :: rest)

def pluginFiles (root main : Path) (candidates : List Path) : List Path :=
  let inside := candidates.filter (·.isUnder root)
  let all := if inside.any (·.same main) then inside else inside ++ [main]
  dropRepeats (sortPaths all)

/-- The context of a plugin with a directory of its own, which names the plugin. -/
def ofDirectory (main : Path) (candidates : List Path) : Except ValueError Context := do
  let root ← rootOf main
  let slug ← nameOf root
  let name ← nameOf main
  return {
    mainFile := main
    root
    slug
    basename := slug ++ "/" ++ name
    files := pluginFiles root main candidates
    singleFile := false }

def ofFile (main : Path) : Except ValueError Context := do
  let root ← rootOf main
  let basename ← nameOf main
  let slug ←
    match main.stem with
    | some s => pure s
    | none => throw (.invalidContext ("no file stem: " ++ main.text))
  return { mainFile := main, root, slug, basename, files := [main], singleFile := true }

def withExtension (context : Context) (ext : String) : List Path :=
  context.files.filter (·.hasExtension ext)

/-- The path as seen from the plugin's root; other paths stay whole. -/
def relative (context : Context) (p : Path) : String := p.relativeTo context.root

/-- Whether the host's report of a file means one of the plugin's. -/
def owns (context : Context) (file : Option Path) : Bool :=
  match file with
  | some p => p.isUnder context.root
  | none => false

/-- Where a finding reported by the host is placed: what lies outside the plugin is laid to its
main file, without a line. -/
def place (context : Context) (file : Option Path) (line : Nat) : String × Nat :=
  match file with
  | some p =>
    if p.isUnder context.root then (context.relative p, line)
    else (context.relative context.mainFile, 0)
  | none => (context.relative context.mainFile, 0)

end Context

end PluginAudit
