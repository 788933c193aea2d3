/-!
The decimal text of a double: the fewest significant digits that read back as the same double,
and of those the nearest to it.
-/

namespace PluginAudit.Decimal

/-- A positive decimal `0.d₁d₂… · 10^point`. -/
structure Digits where
  digits : List Nat
  point : Int

structure Ratio where
  numerator : Nat
  denominator : Nat

def powerOfTwo (e : Int) (m : Nat) : Ratio :=
  if 0 ≤ e then ⟨m * Nat.pow 2 e.toNat, 1⟩ else ⟨m, Nat.pow 2 (-e).toNat⟩

def Ratio.scaleByTen (x : Ratio) (e : Int) : Ratio :=
  if 0 ≤ e then ⟨x.numerator * Nat.pow 10 e.toNat, x.denominator⟩
  else ⟨x.numerator, x.denominator * Nat.pow 10 (-e).toNat⟩

/-- The exponent `k` with `10^(k-1) ≤ x < 10^k`. -/
def Ratio.decimalExponent (x : Ratio) : Int :=
  let k : Int := (Nat.toDigits 10 x.numerator).length - (Nat.toDigits 10 x.denominator).length
  let y := x.scaleByTen (-k)
  if y.numerator < y.denominator then k else k + 1

/-- The reals that round to `m · 2^e`, all multiplied by four: the two ends, whether the ends
belong to them, and the value itself. -/
structure Interval where
  low : Nat
  high : Nat
  closed : Bool
  value : Nat

def hiddenBit : Nat := 0x10000000000000

def Interval.ofDouble (m : Nat) (lowest : Bool) : Interval where
  low := if m = hiddenBit ∧ !lowest then 4 * m - 1 else 4 * m - 2
  high := 4 * m + 2
  closed := m % 2 == 0
  value := 4 * m

def Interval.holds (i : Interval) (e : Int) (x : Ratio) : Bool :=
  let low := powerOfTwo (e - 2) i.low
  let high := powerOfTwo (e - 2) i.high
  let a := low.numerator * x.denominator
  let b := x.numerator * low.denominator
  let c := x.numerator * high.denominator
  let d := high.numerator * x.denominator
  if i.closed then a ≤ b && c ≤ d else a < b && c < d

/-- The nearest point with `n` digits that lies in the interval. -/
def nearest? (i : Interval) (e point : Int) (n : Nat) : Option Nat :=
  let x := (powerOfTwo (e - 2) i.value).scaleByTen (n - point)
  let below := x.numerator / x.denominator
  let left := x.numerator % x.denominator
  let inside (k : Nat) : Bool := i.holds e (Ratio.scaleByTen ⟨k, 1⟩ (point - n))
  match inside below, inside (below + 1) with
  | true, true =>
    if 2 * left < x.denominator || (2 * left == x.denominator && below % 2 == 0) then some below
    else some (below + 1)
  | true, false => some below
  | false, true => some (below + 1)
  | false, false => none

def dropZeros : List Nat → List Nat
  | [] => []
  | d :: r =>
    match dropZeros r with
    | [] => if d = 0 then [] else [d]
    | s => d :: s

def digitsOf (n : Nat) : List Nat := (Nat.toDigits 10 n).map fun c => c.toNat - 48

/-- The fewest digits, at least `n` and fewer than `n + count`. -/
def fewest (i : Interval) (e point : Int) : (count n : Nat) → Digits
  | 0, _ => ⟨[0], point⟩
  | count + 1, n =>
    match nearest? i e point n with
    | some k =>
      let ds := digitsOf k
      ⟨dropZeros ds, point + (ds.length - n : Int)⟩
    | none => fewest i e point count (n + 1)

/-- The shortest digits of the double with bits `bits`, which is finite and not zero. -/
def shortest (bits : UInt64) : Digits :=
  let field := (bits.toNat / hiddenBit) % 2048
  let fraction := bits.toNat % hiddenBit
  let m := if field = 0 then fraction else fraction + hiddenBit
  let e : Int := (if field = 0 then 1 else field : Nat) - 1075
  let i := Interval.ofDouble m (field ≤ 1)
  fewest i e (powerOfTwo (e - 2) i.value).decimalExponent 18 1

end PluginAudit.Decimal
