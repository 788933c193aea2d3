import PluginAudit.Text.Ascii
import PluginAudit.Text.Lines
import PluginAudit.Text.Quoted
import PluginAudit.Text.Utf8

/-!
Where a database is, written as an address. A database is a file or is kept in memory; parameters
of the address say how it is opened.
-/

namespace PluginAudit

inductive AddressError where
  | unknownValue (value parameter : String)
  | unknownParameter (name : String)
  | notText (part : Text.Malformed)

def AddressError.message : AddressError → String
  | .unknownValue value parameter =>
    "error with configuration: unknown value " ++ value.quoted ++ " for `" ++ parameter ++ "`"
  | .unknownParameter name => "error with configuration: unknown query parameter `" ++ name ++
      "` while parsing connection URL"
  | .notText ⟨index, some size⟩ => "error with configuration: invalid utf-8 sequence of " ++
      size.repr ++ " bytes from index " ++ index.repr
  | .notText ⟨index, none⟩ =>
    "error with configuration: incomplete utf-8 byte sequence from index " ++ index.repr

structure DatabaseLocation where
  file : String
  inMemory : Bool
  readOnly : Bool
  /-- Whether the file is taken to be changed by nobody. -/
  immutable : Bool
  /-- The kind of file system by which the file is reached, if one is named. -/
  fileSystem : Option String

namespace DatabaseLocation

def hexValue? (c : Char) : Option Nat :=
  if c.isDigit then some (c.toNat - 48)
  else if 'a' ≤ c && c ≤ 'f' then some (c.toNat - 87)
  else if 'A' ≤ c && c ≤ 'F' then some (c.toNat - 55)
  else none

/-- The byte of an escape, if there is one. -/
def escape? (high low : Char) : Option UInt8 :=
  match hexValue? high, hexValue? low with
  | some h, some l => some (UInt8.ofNat (h * 16 + l))
  | _, _ => none

/-- The bytes that a text stands for; a percent sign and two hexadecimal digits are one byte. -/
def unescape : List Char → Text.Bytes
  | [] => []
  | '%' :: h :: l :: r =>
    match escape? h l with
    | some b => b :: unescape r
    | none => Text.encode ['%'] ++ unescape (h :: l :: r)
  | c :: r => Text.encode [c] ++ unescape r

def dropRepeated (start : List Char) : (times : Nat) → List Char → List Char
  | 0, text => text
  | times + 1, text =>
    match Text.after? start text with
    | some rest => dropRepeated start times rest
    | none => text

def body (address : List Char) : List Char :=
  dropRepeated "sqlite:".toList address.length
    (dropRepeated "sqlite://".toList address.length address)

/-- A part of a parameter, in which a plus sign stands for a space. -/
def parameterText (part : List Char) : String :=
  .ofList (Text.decodeLossy (unescape (part.map fun c => if c = '+' then ' ' else c)))

def parameters (text : List Char) : List (String × String) :=
  ((Text.splitAt '&' text).filter (!·.isEmpty)).map fun part =>
    match Text.splitOnce '=' part with
    | some (name, value) => (parameterText name, parameterText value)
    | none => (parameterText part, "")

def withParameter (l : DatabaseLocation) (name value : String) :
    Except AddressError DatabaseLocation :=
  match name, value with
  | "mode", "ro" => .ok { l with readOnly := true }
  | "mode", "rw" | "mode", "rwc" => .ok l
  | "mode", "memory" => .ok { l with inMemory := true }
  | "cache", "private" | "cache", "shared" => .ok l
  | "immutable", "true" | "immutable", "1" => .ok { l with immutable := true }
  | "immutable", "false" | "immutable", "0" => .ok { l with immutable := false }
  | "vfs", name => .ok { l with fileSystem := some name }
  | name, value =>
    if ["mode", "cache", "immutable"].contains name then .error (.unknownValue value name)
    else .error (.unknownParameter name)

def ofName (name : List Char) : Except AddressError DatabaseLocation :=
  if name = ":memory:".toList then .ok ⟨"", true, false, false, none⟩
  else
    match Text.malformed? (unescape name) with
    | some part => .error (.notText part)
    | none => .ok ⟨.ofList (Text.decodeLossy (unescape name)), false, false, false, none⟩

def ofAddress (address : String) : Except AddressError DatabaseLocation := do
  let text := body address.toList
  let (name, query) := (Text.splitOnce '?' text).getD (text, [])
  (parameters query).foldlM (fun l (key, value) => l.withParameter key value) (← ofName name)

end DatabaseLocation

end PluginAudit
