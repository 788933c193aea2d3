import PluginAudit.FileTree
import PluginAudit.Host.Database

/-!
The file of a database. It is looked for under a full path, in which links and dots are resolved
name by name, so that a missing directory before two dots counts for nothing.
-/

namespace PluginAudit

namespace DatabaseFile

def signature : Text.Bytes := Text.encode "SQLite format 3\x00".toList

def byteAt (data : Text.Bytes) (i : Nat) : Nat := ((data.drop i).headD 0).toNat

def wordAt (data : Text.Bytes) (i : Nat) : Nat :=
  (data.drop i).take 4 |>.foldl (fun n b => n * 256 + b.toNat) 0

/-- The page size is a power of two; the greatest one is written as 1. -/
def pageSize (data : Text.Bytes) : Nat := byteAt data 16 * 256 + byteAt data 17 * 65536

def pageSizes : List Nat := [512, 1024, 2048, 4096, 8192, 16384, 32768, 65536]

/-- Whether a file has the header of a database: format, version, the three fixed fractions, and
pages with enough room. -/
def hasHeader (data : Text.Bytes) : Bool :=
  signature.isPrefixOf data && byteAt data 19 ≤ 2 &&
    (data.drop 21).take 3 == [64, 32, 32] && pageSizes.contains (pageSize data) &&
    480 + byteAt data 20 ≤ pageSize data

/-- How many pages the header claims, if it was written with the last change. -/
def claimedPages (data : Text.Bytes) : Nat :=
  if wordAt data 24 = wordAt data 92 then wordAt data 28 else 0

/-- Whether the first page can hold the list of tables and the pages are all there. -/
def isSound (data : Text.Bytes) : Bool :=
  [5, 13].contains (byteAt data 100) &&
    claimedPages data * pageSize data < data.length + pageSize data

def check (data : Text.Bytes) : Except SqlError Unit :=
  if data.length ≤ 1 then .ok ()
  else if !hasHeader data then .error .notDatabase
  else if !isSound data then .error .malformed
  else .ok ()

def linkLimit : Nat := 201

def pathLimit : Nat := 512

/-- The length of a full path whose names are given innermost first. -/
def pathSize (names : List String) : Nat := names.foldr (fun s n => s.utf8ByteSize + 1 + n) 0

/-- The full path that the parts of a path lead to from `here`, innermost first. -/
def fullPath (root : Node) (links : Nat) (here : List String) (parts : List (List Char)) :
    Except SqlError Location :=
  match parts with
  | [] => .ok here.reverse
  | part :: rest =>
    if part = [] ∨ part = ['.'] then fullPath root links here rest
    else if part = ['.', '.'] then fullPath root links here.tail rest
    else
      let place := String.ofList part :: here
      if pathLimit ≤ pathSize place then .error .cannotOpen
      else
        match root.look place.reverse with
        | .ok (.link target) =>
          match links with
          | 0 => .error .cannotOpen
          | links + 1 =>
            fullPath root links (if Path.isAbsolute ⟨target⟩ then [] else here)
              (Text.splitAt '/' target.toList ++ rest)
        | .ok _ | .error .notFound => fullPath root links place rest
        | .error _ => .error .cannotOpen
termination_by (links, parts.length)

def journalName (place : Location) : String := place.getLastD "" ++ "-journal"

/-- Whether the full path of the journal is short enough. -/
def fits (place : Location) : Bool := pathSize (place.dropLast ++ [journalName place]) ≤ pathLimit

end DatabaseFile

end PluginAudit
