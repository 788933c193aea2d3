import PluginAudit.Json.Numeral

/-!
The tokens of a JSON text, read by an automaton that takes one character at a time.
-/

namespace PluginAudit.Json

/-- A character of a string, or a UTF-16 unit written as an escape. -/
inductive Piece where
  | char (c : Char)
  | unit (n : Nat)

def isHighUnit (n : Nat) : Bool := 0xD800 ≤ n && n < 0xDC00

def isLowUnit (n : Nat) : Bool := 0xDC00 ≤ n && n < 0xE000

/-- The characters of a string; none if it holds half of a surrogate pair. -/
def joinPieces : List Piece → Option (List Char)
  | [] => some []
  | .char c :: r => (joinPieces r).map (c :: ·)
  | .unit h :: .unit l :: r =>
    if isHighUnit h then
      if isLowUnit l then
        (joinPieces r).map (Char.ofNat (0x10000 + (h - 0xD800) * 0x400 + (l - 0xDC00)) :: ·)
      else none
    else if isLowUnit h then none
    else (joinPieces (.unit l :: r)).map (Char.ofNat h :: ·)
  | .unit n :: r =>
    if isHighUnit n || isLowUnit n then none else (joinPieces r).map (Char.ofNat n :: ·)

inductive Token where
  | openObject | closeObject | openArray | closeArray | comma | colon
  | null
  | bool (value : Bool)
  | num (value : Numeral)
  /-- A string; none if it holds half of a surrogate pair. -/
  | str (text : Option String)

/-- Where the automaton stands; what has been read of a token is kept in reverse. -/
inductive Scan where
  | between
  | word (read : List Char)
  | number (read : List Char)
  | string (read : List Piece)
  | escape (read : List Piece)
  | hex (read : List Piece) (left value : Nat)

namespace Scan

def isNumeralChar (c : Char) : Bool :=
  c.isDigit || c == '-' || c == '+' || c == '.' || c == 'e' || c == 'E'

def start (c : Char) : Option (List Token × Scan) :=
  match c with
  | ' ' | '\n' | '\t' | '\r' => some ([], .between)
  | '{' => some ([.openObject], .between)
  | '}' => some ([.closeObject], .between)
  | '[' => some ([.openArray], .between)
  | ']' => some ([.closeArray], .between)
  | ',' => some ([.comma], .between)
  | ':' => some ([.colon], .between)
  | '"' => some ([], .string [])
  | c =>
    if c.isDigit || c == '-' then some ([], .number [c])
    else if c.isLower then some ([], .word [c])
    else none

def wordToken? (word : String) : Option Token :=
  match word with
  | "null" => some .null
  | "true" => some (.bool true)
  | "false" => some (.bool false)
  | _ => none

def escaped? (c : Char) : Option Char :=
  match c with
  | '"' => some '"'
  | '\\' => some '\\'
  | '/' => some '/'
  | 'b' => some '\x08'
  | 'f' => some '\x0C'
  | 'n' => some '\n'
  | 'r' => some '\r'
  | 't' => some '\t'
  | _ => none

def hexValue? (c : Char) : Option Nat :=
  if c.isDigit then some (c.toNat - 48)
  else if 'a' ≤ c && c ≤ 'f' then some (c.toNat - 87)
  else if 'A' ≤ c && c ≤ 'F' then some (c.toNat - 55)
  else none

/-- The token that is complete when the text ends or another token begins. -/
def finish : Scan → Option (List Token)
  | .between => some []
  | .word read => (wordToken? (.ofList read.reverse)).map ([·])
  | .number read => (Numeral.ofText? read.reverse).map fun n => [.num n]
  | _ => none

/-- One character: the tokens it completes and where the automaton stands after it. -/
def step (scan : Scan) (c : Char) : Option (List Token × Scan) :=
  match scan with
  | .between => start c
  | .word read =>
    if c.isLower then some ([], .word (c :: read))
    else (Scan.word read).finish.bind fun ts => (start c).map fun (us, s) => (ts ++ us, s)
  | .number read =>
    if isNumeralChar c then some ([], .number (c :: read))
    else (Scan.number read).finish.bind fun ts => (start c).map fun (us, s) => (ts ++ us, s)
  | .string read =>
    if c = '"' then some ([.str ((joinPieces read.reverse).map .ofList)], .between)
    else if c = '\\' then some ([], .escape read)
    else if c.toNat < 0x20 then none
    else some ([], .string (.char c :: read))
  | .escape read =>
    if c = 'u' then some ([], .hex read 4 0)
    else (escaped? c).map fun d => ([], .string (.char d :: read))
  | .hex read left value =>
    (hexValue? c).map fun d =>
      let value := value * 16 + d
      ([], if left ≤ 1 then .string (.unit value :: read) else .hex read (left - 1) value)

def run (scan : Scan) : List Char → Option (List Token)
  | [] => scan.finish
  | c :: r =>
    match scan.step c with
    | none => none
    | some (tokens, next) => (next.run r).map (tokens ++ ·)

end Scan

/-- The tokens of a text; none if some part of it is no token. -/
def tokens? (text : List Char) : Option (List Token) := Scan.between.run text

end PluginAudit.Json
