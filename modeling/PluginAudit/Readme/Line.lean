import PluginAudit.Text.Ascii
import PluginAudit.Text.Blank
import PluginAudit.Text.Digit
import PluginAudit.Text.Lines

/-!
What a line of a readme can be: a title or a heading in marks, a header, or text. Headers and
values have forms of their own.
-/

namespace PluginAudit.Readme

def isMark (c : Char) : Bool := c == '=' || c == '#'

def markedText (line : List Char) : List Char :=
  let body :=
    match Text.trimStart line with
    | '=' :: r => r.dropWhile (· == '=')
    | '#' :: r => r.dropWhile (· == '#')
    | r => r
  Text.trimEnd (Text.dropEndWhile isMark (Text.trimEnd (Text.trimStart body)))

def isTitle (line : List Char) : Bool :=
  match Text.trimStart line with
  | c :: _ => isMark c
  | [] => false

/-- A heading has two marks of one kind and no third of any kind. -/
def isHeading (line : List Char) : Bool :=
  match Text.trimStart line with
  | '=' :: '=' :: r => r.head?.all (!isMark ·)
  | '#' :: '#' :: r => r.head?.all (!isMark ·)
  | _ => false

def isKeyChar (c : Char) : Bool := c.isAlpha || c == ' '

/-- A header is a key of letters and inner spaces, a colon and a value. Asterisks may stand
before the key and behind the colon. -/
def headerOf? (line : List Char) : Option (List Char × List Char) :=
  let line := Text.trimStart ((Text.trimStart line).dropWhile (· == '*'))
  match line with
  | [] => none
  | c :: _ =>
    if !c.isAlpha then none
    else
      let key := Text.dropEndWhile (· == ' ') (line.takeWhile isKeyChar)
      match Text.trimStart (line.dropWhile isKeyChar) with
      | ':' :: r => some (Text.asciiLower key, Text.trim (r.dropWhile (· == '*')))
      | _ => none

/-- Two or three groups of digits with dots between them. -/
def isVersion (value : List Char) : Bool :=
  let groups := Text.splitAt '.' value
  (groups.length == 2 || groups.length == 3) &&
    groups.all fun g => !g.isEmpty && g.all Text.isDigit

def isUsernameChar (c : Char) : Bool :=
  c.isLower || c.isDigit || c == '_' || c == '-' || c == '.' || c == '@'

def isUsername (value : List Char) : Bool := !value.isEmpty && value.all isUsernameChar

def isSchemeChar (c : Char) : Bool := c.isAlphanum || c == '+' || c == '.' || c == '-'

/-- A scheme, two slashes, and at least one character of a host. -/
def isUrl (value : List Char) : Bool :=
  match value with
  | [] => false
  | c :: r =>
    c.isAlpha &&
      match r.dropWhile isSchemeChar with
      | ':' :: '/' :: '/' :: h :: rest =>
        !(Text.isBlank h || h == '/' || h == '?' || h == '#') && rest.all (!Text.isBlank ·)
      | _ => false

end PluginAudit.Readme
