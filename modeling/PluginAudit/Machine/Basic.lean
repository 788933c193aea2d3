import PluginAudit.Runner.Launch

/-!
What surrounds a command: the files, the environment, and the programs that can be started.
-/

namespace PluginAudit

structure Machine where
  tree : FileTree
  environment : List (String × String)
  /-- The programs besides the files of the tree, by their paths: how long each runs, and what it
  leaves behind. -/
  programs : List (String × (Launch → Nat × Exit))

namespace Machine

def valueOf? (m : Machine) (name : String) : Option String := m.environment.lookup name

/-- The environment by its bytes, as a program that is started on the machine inherits it. -/
def inherited (m : Machine) : List (Text.Bytes × Text.Bytes) :=
  m.environment.map fun (name, value) => (Text.encode name.toList, Text.encode value.toList)

/-- The longest text that can be handed to a program, in bytes. -/
def handOverLimit : Nat := 131071

/-- The room for all that is handed to a program, in bytes. -/
def roomLimit : Nat := 2097152

def handedOver (l : Launch) : List String :=
  l.program :: (l.args ++ l.environment.map fun (name, value) => name ++ "=" ++ value)

/-- The room that the program's path and all that is handed to it take: every text has an end mark,
and an address of eight bytes if it is handed over. -/
def roomFor (l : Launch) (path : Path) : Nat :=
  (handedOver l).foldr (fun s n => s.utf8ByteSize + 9 + n) (path.text.utf8ByteSize + 1)

def fits (l : Launch) (path : Path) : Bool :=
  (handedOver l).all (·.utf8ByteSize ≤ handOverLimit) && roomFor l path ≤ roomLimit

/-- Starts the program at a path; no file of the tree can be executed. -/
def execute (m : Machine) (l : Launch) (path : Path) : Execution :=
  match m.programs.lookup path.text with
  | some run =>
    if fits l path then let (after, exit) := run l; .ended after exit else .refused .tooLong
  | none =>
    match m.tree.node path with
    | .ok _ => .refused (.file .permissionDenied)
    | .error e => .refused (.file e)

def defaultSearchPath : String := "/bin:/usr/bin"

/-- Starts a program that is searched for in directories. The search goes on after a file that may
not be executed, which counts in the end, and where there is none; `failure` is the last cause. -/
def search (m : Machine) (l : Launch) (denied : Bool) (failure : FileError) :
    List (List Char) → Execution
  | [] => .refused (.file (if denied then .permissionDenied else failure))
  | directory :: rest =>
    match m.execute l (Path.join ⟨.ofList directory⟩ ⟨l.program⟩) with
    | .refused (.file .permissionDenied) => m.search l true failure rest
    | .refused (.file .notFound) => m.search l denied .notFound rest
    | .refused (.file .notDirectory) => m.search l denied .notDirectory rest
    | execution => execution

def start (m : Machine) (l : Launch) : Execution :=
  if (l.directory.text :: handedOver l).any (·.toList.contains '\x00') then .refused .nulInData
  else
    match m.tree.locate l.directory with
    | .error e => .refused (.file e)
    | .ok location =>
      if !(m.tree.root.find? location).any Node.isDirectory then .refused (.file .notDirectory)
      else
        let here : Machine := { m with tree := { m.tree with current := location } }
        if l.program.toList.contains '/' then here.execute l ⟨l.program⟩
        else
          here.search l false .notFound
            (Text.splitAt ':' ((l.environment.lookup "PATH").getD defaultSearchPath).toList)

end Machine

end PluginAudit
