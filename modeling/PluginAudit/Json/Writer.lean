import PluginAudit.Decimal.Shortest
import PluginAudit.Json.Basic

/-!
JSON texts of values, on one line or with one member a line.
-/

namespace PluginAudit.Json

/-- Doubles have a point or an exponent, whose sign is always written; between 10^-5 and 10^16 they
are written out. -/
def digitsText (d : Decimal.Digits) : List Char :=
  let ds := d.digits.map Nat.digitChar
  let n : Int := ds.length
  if n ≤ d.point && d.point ≤ 16 then
    ds ++ List.replicate (d.point - n).toNat '0' ++ ['.', '0']
  else if 0 < d.point && d.point ≤ 16 then
    ds.take d.point.toNat ++ ['.'] ++ ds.drop d.point.toNat
  else if -5 < d.point && d.point ≤ 0 then
    ['0', '.'] ++ List.replicate (-d.point).toNat '0' ++ ds
  else
    let mantissa := if ds.length ≤ 1 then ds else ds.take 1 ++ ['.'] ++ ds.drop 1
    let e := d.point - 1
    mantissa ++ ['e'] ++ [if e < 0 then '-' else '+'] ++ Nat.toDigits 10 e.natAbs

def floatText (x : Float) : List Char :=
  let sign := if x.toBits ≥ 0x8000000000000000 then ['-'] else []
  if x == 0 then sign ++ ['0', '.', '0'] else sign ++ digitsText (Decimal.shortest x.toBits)

def intText (n : Int) : List Char :=
  (if n < 0 then ['-'] else []) ++ Nat.toDigits 10 n.natAbs

def Number.text : Number → List Char
  | .int n => intText n
  | .float x => if x.isNaN || x.isInf then "null".toList else floatText x

def escapeChar (c : Char) : List Char :=
  match c with
  | '"' => ['\\', '"']
  | '\\' => ['\\', '\\']
  | '\x08' => ['\\', 'b']
  | '\x0C' => ['\\', 'f']
  | '\n' => ['\\', 'n']
  | '\r' => ['\\', 'r']
  | '\t' => ['\\', 't']
  | c =>
    if c.toNat < 0x20 then
      ['\\', 'u', '0', '0', Nat.digitChar (c.toNat / 16), Nat.digitChar (c.toNat % 16)]
    else [c]

def quoted (text : String) : List Char := '"' :: (text.toList.flatMap escapeChar ++ ['"'])

mutual
def text : Json → List Char
  | .null => "null".toList
  | .bool true => "true".toList
  | .bool false => "false".toList
  | .num n => n.text
  | .str s => quoted s
  | .arr items => '[' :: (itemsText items ++ [']'])
  | .obj members => '{' :: (membersText members ++ ['}'])

def itemsText : List Json → List Char
  | [] => []
  | [v] => text v
  | v :: w :: vs => text v ++ ',' :: itemsText (w :: vs)

def membersText : List (String × Json) → List Char
  | [] => []
  | [(k, v)] => quoted k ++ ':' :: text v
  | (k, v) :: m :: ms => quoted k ++ ':' :: (text v ++ ',' :: membersText (m :: ms))
end

def compact (v : Json) : String := .ofList v.text

def newline (depth : Nat) : List Char := '\n' :: List.replicate (2 * depth) ' '

mutual
/-- The text of a value at a depth of indentation, one item or member a line. -/
def indented (depth : Nat) : Json → List Char
  | .arr [] => ['[', ']']
  | .obj [] => ['{', '}']
  | .arr (v :: vs) =>
    '[' :: (newline (depth + 1) ++ indented (depth + 1) v ++ indentedItems (depth + 1) vs ++
      newline depth ++ [']'])
  | .obj ((k, v) :: ms) =>
    '{' :: (newline (depth + 1) ++ quoted k ++ [':', ' '] ++ indented (depth + 1) v ++
      indentedMembers (depth + 1) ms ++ newline depth ++ ['}'])
  | v => text v

def indentedItems (depth : Nat) : List Json → List Char
  | [] => []
  | v :: vs => ',' :: (newline depth ++ indented depth v ++ indentedItems depth vs)

def indentedMembers (depth : Nat) : List (String × Json) → List Char
  | [] => []
  | (k, v) :: ms =>
    ',' :: (newline depth ++ quoted k ++ [':', ' '] ++ indented depth v ++
      indentedMembers depth ms)
end

def pretty (v : Json) : String := .ofList (indented 0 v)

end PluginAudit.Json
