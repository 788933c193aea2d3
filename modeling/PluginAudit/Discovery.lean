import PluginAudit.Context
import PluginAudit.FileTree
import PluginAudit.HeaderBlock

/-!
Finding a plugin under a path: a PHP file is a plugin by itself; a directory is one if a PHP file
directly in it declares a plugin's name.
-/

namespace PluginAudit

inductive NoPlugin where
  | notFound (path : Path)
  | noMainFile (root : Path)
  | notPhp (path : Path)
  | file (path : Path) (cause : FileError)
  | context (cause : ValueError)

def NoPlugin.message : NoPlugin → String
  | .notFound path => "Plugin path not found: " ++ path.text
  | .noMainFile root => "No PHP file with a Plugin Name header directly inside " ++ root.text
  | .notPhp path => "Not a PHP file: " ++ path.text
  | .file path cause => "IO error at " ++ path.text ++ ": " ++ cause.message
  | .context cause => cause.message

namespace Discovery

/-- Directories whose files are not the plugin's own. -/
def skipped : List String := [".git", "vendor", "node_modules"]

def isSource (p : Path) : Bool := p.hasExtension "php"

def sources (root : Location) (n : Node) : List Path :=
  Context.sortPaths ((n.files skipped.contains root).map FileTree.pathOf)

def declaresPlugin (data : Text.Bytes) : Bool :=
  (HeaderBlock.ofChars (Text.decodeLossy (data.take HeaderBlock.scanLimit))).declaresPlugin

/-- The first of the files that lies directly in the root and declares a plugin's name. -/
def mainFile (tree : FileTree) (root : Path) : List Path → Except NoPlugin Path
  | [] => .error (.noMainFile root)
  | p :: rest =>
    if p.parent.any (·.same root) && isSource p then
      match tree.read p with
      | .error e => .error (.file p e)
      | .ok data => if declaresPlugin data then .ok p else mainFile tree root rest
    else mainFile tree root rest

def inDirectory (tree : FileTree) (root : Location) (n : Node) : Except NoPlugin Context :=
  let files := sources root n
  match mainFile tree (FileTree.pathOf root) files with
  | .error e => .error e
  | .ok main => (Context.ofDirectory main files).mapError .context

/-- The plugin under a path, every link of which is followed. -/
def discover (tree : FileTree) (path : Path) : Except NoPlugin Context :=
  match tree.follow path with
  | .error _ => .error (.notFound path)
  | .ok location =>
    match tree.root.find? location with
    | some (.directory entries) => inDirectory tree location (.directory entries)
    | some (.file _) =>
      let file := FileTree.pathOf location
      if isSource file then (Context.ofFile file).mapError .context else .error (.notPhp file)
    | _ => .error (.notFound path)

end Discovery

end PluginAudit
