import PluginAudit.Json.Basic

/-!
Numbers as they are written, and the values they stand for. A numeral with a fraction or an
exponent, or one beyond 64 bits, is a double: its leading digits as a 64-bit number, scaled once
by a power of ten.
-/

namespace PluginAudit.Json

/-- A number as written; the digit strings hold ASCII digits only. -/
structure Numeral where
  negative : Bool
  whole : List Nat
  fraction : List Nat
  exponent : Option (Bool × List Nat)

def digitValue? (c : Char) : Option Nat :=
  if c.isDigit then some (c.toNat - 48) else none

def takeDigits : List Char → List Nat × List Char
  | [] => ([], [])
  | c :: r =>
    match digitValue? c with
    | none => ([], c :: r)
    | some d => let (ds, rest) := takeDigits r; (d :: ds, rest)

/-- Whether a digit may be added to a significand without leaving 64 bits. -/
def fits (significand digit : Nat) : Bool := significand * 10 + digit < 0x10000000000000000

/-- A significand and the digits left over once it is full. -/
def fill (significand : Nat) : List Nat → Nat × List Nat
  | [] => (significand, [])
  | d :: r => if fits significand d then fill (significand * 10 + d) r else (significand, d :: r)

def limit32 : Int := 0x7FFFFFFF

/-- The value of an exponent's digits, or none if it exceeds 31 bits. -/
def exponentValue? (digits : List Nat) : Option Int :=
  let value := digits.foldl (fun (n d : Nat) => min (n * 10 + d) 0x80000000) 0
  if (value : Int) ≤ limit32 then some value else none

def tenTo (n : Nat) : Float := Float.ofScientific 1 false n

/-- `x / 10^n`, in steps that a double can hold. -/
def scaleDown : (steps n : Nat) → Float → Float
  | 0, _, x => x
  | steps + 1, n, x =>
    if n ≤ 308 then x / tenTo n
    else if x == 0 then x
    else scaleDown steps (n - 308) (x / tenTo 308)

/-- `significand · 10^exponent`, or none if it exceeds every double. -/
def scale? (significand : Nat) (exponent : Int) : Option Float :=
  let x := (UInt64.ofNat significand).toFloat
  if 0 ≤ exponent then
    if 308 < exponent then (if x == 0 then some x else none)
    else
      let y := x * tenTo exponent.toNat
      if y.isInf then none else some y
  else some (scaleDown 4 (-exponent).toNat x)

/-- The double of a numeral, or none if it is too large. -/
def Numeral.float? (n : Numeral) : Option Float :=
  let (s, left) := fill 0 n.whole
  let (t, unread) := fill s n.fraction
  let places : Int := (left.length : Int) - (n.fraction.length - unread.length : Int)
  let size : Option Float :=
    match n.exponent with
    | none => scale? t places
    | some (down, digits) =>
      match exponentValue? digits with
      | some e =>
        let shifted := if down then places - e else places + e
        scale? t (max (min shifted limit32) (-limit32 - 1))
      | none => if t != 0 && !down then none else some 0
  size.map fun x => if n.negative then -x else x

/-- The value of a numeral, or none if it is too large for a double. -/
def Numeral.value? (n : Numeral) : Option Number :=
  match n.fraction, n.exponent, fill 0 n.whole with
  | [], none, (s, []) =>
    if !n.negative then some (.int s)
    else if s = 0 || 0x8000000000000000 < s then some (.float (-(UInt64.ofNat s).toFloat))
    else some (.int (-(s : Int)))
  | _, _, _ => n.float?.map .float

/-- The exponent part of a numeral, which has to end the text. -/
def Numeral.readExponent (n : Numeral) : List Char → Option Numeral
  | [] => some n
  | c :: r =>
    if c = 'e' || c = 'E' then
      let (down, r) :=
        match r with
        | '+' :: r => (false, r)
        | '-' :: r => (true, r)
        | r => (false, r)
      match takeDigits r with
      | ([], _) => none
      | (ds, []) => some { n with exponent := some (down, ds) }
      | _ => none
    else none

/-- Reads a whole text as a numeral. The first of several whole digits is not zero. -/
def Numeral.ofText? (text : List Char) : Option Numeral :=
  let (negative, text) :=
    match text with
    | '-' :: r => (true, r)
    | r => (false, r)
  match takeDigits text with
  | ([], _) => none
  | (0 :: _ :: _, _) => none
  | (whole, '.' :: r) =>
    match takeDigits r with
    | ([], _) => none
    | (fraction, r) => Numeral.readExponent ⟨negative, whole, fraction, none⟩ r
  | (whole, r) => Numeral.readExponent ⟨negative, whole, [], none⟩ r

end PluginAudit.Json
