import PluginAudit.Text.Ascii
import PluginAudit.Text.Lines

/-!
Paths. A path keeps its spelling, but it is compared, ordered and searched by its components, so
repeated separators, and single dots after the first component, count for nothing.
-/

namespace PluginAudit

structure Path where
  text : String
deriving DecidableEq, Inhabited

namespace Path

inductive Component where
  | root
  | here
  | up
  | name (text : String)
deriving DecidableEq

namespace Component

def text : Component → String
  | .root => "/"
  | .here => "."
  | .up => ".."
  | .name s => s

def rank : Component → Nat
  | .root => 0
  | .here => 1
  | .up => 2
  | .name _ => 3

/-- The root first, then a dot, then two dots, then names by their characters. -/
def less : Component → Component → Bool
  | .name a, .name b => a < b
  | a, b => a.rank < b.rank

end Component

def isAbsolute (p : Path) : Bool := p.text.toList.head? == some '/'

/-- What the components before the first name are, and the text after them. -/
def lead : List Char → List Component × List Char
  | '/' :: r => ([.root], r)
  | ['.'] => ([.here], [])
  | '.' :: '/' :: r => ([.here], '/' :: r)
  | r => ([], r)

def isFiller (part : List Char) : Bool := part.isEmpty || part == ['.']

def ofPart (part : List Char) : Component :=
  if part = ['.', '.'] then .up else .name (.ofList part)

def components (p : Path) : List Component :=
  let (front, body) := lead p.text.toList
  front ++ ((Text.splitAt '/' body).filter (!isFiller ·)).map ofPart

def same (p q : Path) : Bool := p.components == q.components

def lessComponents : List Component → List Component → Bool
  | _, [] => false
  | [], _ :: _ => true
  | a :: as, b :: bs => a.less b || (a == b && lessComponents as bs)

def less (p q : Path) : Bool := lessComponents p.components q.components

def stripComponents : (base path : List Component) → Option (List Component)
  | [], path => some path
  | _ :: _, [] => none
  | b :: base, c :: path => if b = c then stripComponents base path else none

/-- Whether `p` is `base` or lies below it. -/
def isUnder (p base : Path) : Bool := (stripComponents base.components p.components).isSome

/-- The path without its last component; none if that is the root or nothing is left. -/
def parent (p : Path) : Option Path :=
  let text := p.text.toList
  let (front, body) := lead text
  match (Text.splitAt '/' body).reverse.dropWhile isFiller with
  | _ :: earlier =>
    let kept := (earlier.dropWhile isFiller).reverse
    some ⟨.ofList (text.take (text.length - body.length) ++ Text.joinWith ['/'] kept)⟩
  | [] => if front = [.here] then some ⟨""⟩ else none

def fileName (p : Path) : Option String :=
  match p.components.getLast? with
  | some (.name s) => some s
  | _ => none

/-- A name before and after its last dot; a dot at its start counts for none. -/
def splitName (name : String) : String × Option String :=
  match Text.splitOnce '.' name.toList.reverse with
  | some (after, before) =>
    if before.isEmpty then (name, none) else (.ofList before.reverse, some (.ofList after.reverse))
  | none => (name, none)

def stem (p : Path) : Option String := p.fileName.map fun n => (splitName n).1

def extension (p : Path) : Option String := p.fileName.bind fun n => (splitName n).2

/-- The extension, whatever the case of its letters. -/
def hasExtension (p : Path) (ext : String) : Bool :=
  match p.extension with
  | some e => e.sameIgnoringCase ext
  | none => false

def ofComponents (cs : List Component) : String := String.intercalate "/" (cs.map Component.text)

/-- The text of `p` seen from `base`, or of all of `p` if it does not lie there. -/
def relativeTo (p base : Path) : String :=
  match stripComponents base.components p.components with
  | some rest => ofComponents rest
  | none => ofComponents p.components

def join (p q : Path) : Path :=
  if q.isAbsolute then q
  else if p.text.isEmpty || p.text.toList.getLast? == some '/' then ⟨p.text ++ q.text⟩
  else ⟨p.text ++ "/" ++ q.text⟩

end Path

end PluginAudit
