import PluginAudit.Path
import PluginAudit.Text.Utf8

/-!
Files, directories and symbolic links as a tree, and the errors of looking into it.
-/

namespace PluginAudit

inductive FileError where
  | notFound
  | permissionDenied
  | exists
  | notDirectory
  | isDirectory
  | nameTooLong
  | tooManyLinks
  | nulInName
  | notText
deriving DecidableEq

namespace FileError

def message : FileError → String
  | .notFound => "No such file or directory (os error 2)"
  | .permissionDenied => "Permission denied (os error 13)"
  | .exists => "File exists (os error 17)"
  | .notDirectory => "Not a directory (os error 20)"
  | .isDirectory => "Is a directory (os error 21)"
  | .nameTooLong => "File name too long (os error 36)"
  | .tooManyLinks => "Too many levels of symbolic links (os error 40)"
  | .nulInName => "file name contained an unexpected NUL byte"
  | .notText => "stream did not contain valid UTF-8"

end FileError

inductive Node where
  | file (data : Text.Bytes)
  | directory (entries : List (String × Node))
  | link (target : String)

/-- The names that lead from the root to a node. -/
abbrev Location := List String

def FileTree.nameLimit : Nat := 255

namespace Node

def empty : Node := .directory []

def child? (n : Node) (name : String) : Option Node :=
  match n with
  | .directory entries => entries.lookup name
  | _ => none

def isDirectory : Node → Bool
  | .directory _ => true
  | _ => false

/-- The node at a location, links not being followed. -/
def find? (n : Node) : Location → Option Node
  | [] => some n
  | name :: rest => (n.child? name).bind (·.find? rest)

def look (n : Node) : Location → Except FileError Node
  | [] => .ok n
  | name :: rest =>
    match n with
    | .directory entries =>
      if FileTree.nameLimit < name.utf8ByteSize then .error .nameTooLong
      else
        match entries.lookup name with
        | some m => m.look rest
        | none => .error .notFound
    | _ => .error .notDirectory

def replace (name : String) (n : Node) : List (String × Node) → List (String × Node)
  | [] => [(name, n)]
  | (k, m) :: rest => if k = name then (k, n) :: rest else (k, m) :: replace name n rest

/-- Puts a node at a location and makes the directories above it. -/
def put (new : Node) : Location → Node → Node
  | [], _ => new
  | name :: rest, n =>
    let entries :=
      match n with
      | .directory es => es
      | _ => []
    .directory (replace name (put new rest ((entries.lookup name).getD empty)) entries)

mutual
/-- The locations of the regular files in a tree. A directory for which `skips` holds is left
out with all that is in it. -/
def files (skips : String → Bool) (above : Location) : Node → List Location
  | .file _ => [above]
  | .link _ => []
  | .directory entries => filesOf skips above entries

def filesOf (skips : String → Bool) (above : Location) : List (String × Node) → List Location
  | [] => []
  | (name, n) :: rest =>
    (if n.isDirectory && skips name then [] else files skips (above ++ [name]) n) ++
      filesOf skips above rest
end

end Node

structure FileTree where
  root : Node
  current : Location

namespace FileTree

def pathOf (location : Location) : Path := ⟨"/" ++ String.intercalate "/" location⟩

def linkLimit : Nat := 40

def pathLimit : Nat := 4096

/-- Follows the parts of a path from `here`, whose names are given innermost first. At most
`links` symbolic links are followed. -/
def walk (root : Node) (links : Nat) (here : Location) (parts : List (List Char)) :
    Except FileError Location :=
  match parts with
  | [] => .ok here.reverse
  | part :: rest =>
    match root.find? here.reverse with
    | some (.directory entries) =>
      if part = [] ∨ part = ['.'] then walk root links here rest
      else if part = ['.', '.'] then walk root links here.tail rest
      else if nameLimit < Text.byteSize part then .error .nameTooLong
      else
        match entries.lookup (String.ofList part) with
        | none => .error .notFound
        | some (.link target) =>
          match links with
          | 0 => .error .tooManyLinks
          | links + 1 =>
            if target.isEmpty then .error .notFound
            else
              walk root links (if Path.isAbsolute ⟨target⟩ then [] else here)
                (Text.splitAt '/' target.toList ++ rest)
        | some _ => walk root links (String.ofList part :: here) rest
    | _ => .error .notDirectory
termination_by (links, parts.length)

def walkFrom (tree : FileTree) (p : Path) (parts : List (List Char)) :
    Except FileError Location :=
  walk tree.root linkLimit (if p.isAbsolute then [] else tree.current.reverse) parts

/-- Where a path leads to, however long it is; every link is followed. -/
def follow (tree : FileTree) (p : Path) : Except FileError Location :=
  let text := p.text.toList
  if text.contains '\x00' then .error .nulInName
  else if text.isEmpty then .error .notFound
  else tree.walkFrom p (Text.splitAt '/' text)

def locate (tree : FileTree) (p : Path) : Except FileError Location :=
  let text := p.text.toList
  if !text.contains '\x00' && pathLimit ≤ Text.byteSize text then .error .nameTooLong
  else tree.follow p

def node (tree : FileTree) (p : Path) : Except FileError Node :=
  match tree.locate p with
  | .error e => .error e
  | .ok location =>
    match tree.root.find? location with
    | some n => .ok n
    | none => .error .notFound

def read (tree : FileTree) (p : Path) : Except FileError Text.Bytes :=
  match tree.node p with
  | .error e => .error e
  | .ok (.file data) => .ok data
  | .ok _ => .error .isDirectory

def readText (tree : FileTree) (p : Path) : Except FileError (List Char) :=
  match tree.read p with
  | .error e => .error e
  | .ok data =>
    match Text.decode? data with
    | some text => .ok text
    | none => .error .notText

def hasDirectory (tree : FileTree) (p : Path) : Bool :=
  match tree.node p with
  | .ok n => n.isDirectory
  | .error _ => false

/-- Makes one directory. What a dot or two dots stand for is there already. -/
def makeDirectory (tree : FileTree) (p : Path) : Except FileError FileTree :=
  let text := p.text.toList
  if text.contains '\x00' then .error .nulInName
  else if pathLimit ≤ Text.byteSize text then .error .nameTooLong
  else
    match ((Text.splitAt '/' text).filter (!·.isEmpty)).reverse with
    | [] => .error .exists
    | last :: above => do
      let location ← tree.walkFrom p (above.reverse ++ [['.']])
      if last = ['.'] ∨ last = ['.', '.'] then throw .exists
      else if nameLimit < Text.byteSize last then throw .nameTooLong
      else
        let place := location ++ [String.ofList last]
        match tree.root.find? place with
        | some _ => throw .exists
        | none => return { tree with root := Node.put .empty place tree.root }

/-- Makes one directory; one that is there is as good as a new one. -/
def ensureDirectory (tree : FileTree) (p : Path) : Except FileError FileTree :=
  match tree.makeDirectory p with
  | .error .exists => if tree.hasDirectory p then .ok tree else .error .exists
  | result => result

/-- Makes a directory, and before it those above it if it has none to be in. At most `steps`
directories are tried. The root and the empty path are there already. -/
def makeUpwards (tree : FileTree) (p : Path) : (steps : Nat) → Except FileError FileTree
  | 0 => .ok tree
  | steps + 1 =>
    match p.parent with
    | none => .ok tree
    | some above =>
      match tree.ensureDirectory p with
      | .error .notFound => (tree.makeUpwards above steps).bind (·.ensureDirectory p)
      | result => result

def makeDirectories (tree : FileTree) (p : Path) : Except FileError FileTree :=
  tree.makeUpwards p p.text.length

end FileTree

end PluginAudit
