import PluginAudit.Entries
import PluginAudit.Text.Ascii
import PluginAudit.Text.Blank
import PluginAudit.Text.Lines
import PluginAudit.Text.Utf8

/-!
The headers at the top of a plugin's main file: lines of the form `Key: value`, usually within a
comment. Only the first eight kibibytes of the file are looked at.
-/

namespace PluginAudit

/-- Header values by their canonical names, in ascending order of the names. -/
structure HeaderBlock where
  values : List (String × String)

namespace HeaderBlock

def scanLimit : Nat := 8 * 1024

def known : List String := [
  "Plugin Name", "Plugin URI", "Version", "Description", "Author", "Author URI", "Text Domain",
  "Domain Path", "Network", "Requires at least", "Requires PHP", "Update URI",
  "Requires Plugins", "License", "License URI"]

def canonical? (key : List Char) : Option String :=
  known.find? fun name => Text.sameIgnoringCase name.toList key

def isCommentMark (c : Char) : Bool :=
  c == ' ' || c == '\t' || c == '/' || c == '*' || c == '#' || c == '@'

/-- A line without the opening tag and the comment marks before its text. -/
def dropCommentMarks (line : List Char) : List Char :=
  let line := line.dropWhile fun c => c == ' ' || c == '\t'
  ((Text.after? "<?php".toList line).getD line).dropWhile isCommentMark

/-- A value ends where its comment or the PHP block ends. -/
def cleanValue (value : List Char) : List Char :=
  Text.trim (Text.before "?>".toList (Text.before "*/".toList value))

def ofLine? (line : List Char) : Option (String × List Char) :=
  match Text.splitOnce ':' (dropCommentMarks line) with
  | none => none
  | some (key, value) =>
    (canonical? (Text.trim key)).map fun name => (name, cleanValue value)

/-- The first value of a header that is not empty counts. -/
def addLine (headers : HeaderBlock) (line : List Char) : HeaderBlock :=
  match ofLine? line with
  | some (name, value) =>
    if value.isEmpty then headers else ⟨Entries.putNew name (.ofList value) headers.values⟩
  | none => headers

def ofChars (source : List Char) : HeaderBlock :=
  (Text.lines (Text.takeBytes scanLimit source)).foldl addLine ⟨[]⟩

def ofSource (source : String) : HeaderBlock := ofChars source.toList

def get? (headers : HeaderBlock) (name : String) : Option String := headers.values.lookup name

def name? (headers : HeaderBlock) : Option String := headers.get? "Plugin Name"

def version? (headers : HeaderBlock) : Option String := headers.get? "Version"

def license? (headers : HeaderBlock) : Option String := headers.get? "License"

/-- A file is a plugin's main file if it declares the plugin's name. -/
def declaresPlugin (headers : HeaderBlock) : Bool := headers.name?.isSome

end HeaderBlock

end PluginAudit
