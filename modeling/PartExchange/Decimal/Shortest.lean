/-
**The shortest decimal of a binary fraction.**

A double stands for an interval: all reals that round to it.  Among the decimals in that interval
the one with the fewest digits is taken, and of several such the nearest to the double.
Everything is decided in exact arithmetic.  On the grid of decimals with a given number of digits
only the two neighbours of the value matter: if any point of the grid lies in the interval, so
does one of them.

Main definitions:

* `Decimal`: digits and a power of ten;
* `Decimal.Binary`: a positive double as `mantissa · 2 ^ exponent`;
* `Decimal.shortest`: the decimal with the fewest digits that rounds to it.
-/

set_option relaxedAutoImplicit false
set_option autoImplicit false

namespace PartExchange

/-- The number `digits · 10 ^ exponent`. -/
structure Decimal where
  /-- The digits, read as a number. -/
  digits : Nat
  /-- The power of ten of the last digit. -/
  exponent : Int
  deriving DecidableEq, Repr

namespace Decimal

/-- The positive double `mantissa · 2 ^ exponent`. -/
structure Binary where
  /-- The mantissa, below `2 ^ 53`. -/
  mantissa : Nat
  /-- The power of two of its last bit. -/
  exponent : Int
  deriving DecidableEq, Repr

/-- The magnitude that the lower 63 bits of a double stand for. -/
def Binary.ofBits (bits : UInt64) : Binary :=
  let field : Nat := (bits.toNat >>> 52) % (1 <<< 11)
  let fraction := bits.toNat % (1 <<< 52)
  if field = 0 then ⟨fraction, -1074⟩ else ⟨(1 <<< 52) + fraction, (field : Int) - 1075⟩

/-- A positive fraction. -/
structure Ratio where
  /-- The numerator. -/
  num : Nat
  /-- The denominator. -/
  den : Nat
  deriving DecidableEq, Repr

/-- The fraction `n · base ^ exponent`. -/
def Ratio.scaled (n base : Nat) (exponent : Int) : Ratio :=
  match exponent with
  | .ofNat e => ⟨n * base.pow e, 1⟩
  | .negSucc e => ⟨n, base.pow (e + 1)⟩

/-- Whether one fraction is below another. -/
def Ratio.lt (a b : Ratio) : Bool := a.num * b.den < b.num * a.den

/-- The power of ten of the first digit of a fraction, found by counting. -/
def Ratio.magnitude (r : Ratio) : Int :=
  if r.den ≤ r.num then ((toString (r.num / r.den)).length : Int) - 1
  else
    -- how many zeros stand between the point and the first digit
    let zeros := (toString ((r.den - 1) / r.num)).length
    Int.negOfNat zeros

/-- Where the interval of a double ends. -/
structure Interval where
  /-- The lower end. -/
  low : Ratio
  /-- The upper end. -/
  high : Ratio
  /-- Whether the ends themselves round to the double. -/
  closed : Bool

/-- The reals that round to a double.  Just above a power of two the doubles lie twice as far
apart as just below it. -/
def Binary.interval (b : Binary) : Interval :=
  let below := if b.mantissa = 1 <<< 52 ∧ -1074 < b.exponent then 1 else 2
  { low := .scaled (4 * b.mantissa - below) 2 (b.exponent - 2)
    high := .scaled (4 * b.mantissa + 2) 2 (b.exponent - 2)
    closed := b.mantissa % 2 = 0 }

/-- Whether a fraction lies in an interval. -/
def Interval.contains (i : Interval) (r : Ratio) : Bool :=
  if i.closed then !r.lt i.low && !i.high.lt r else i.low.lt r && r.lt i.high

/-- The decimal as a fraction. -/
def ratio (d : Decimal) : Ratio := .scaled d.digits 10 d.exponent

/-- The neighbour of `value` in an interval on the grid of multiples of `10 ^ exponent`: of two, the
nearer, and on a tie the one with an even last digit. -/
def onGrid? (value : Ratio) (i : Interval) (exponent : Int) : Option Decimal :=
  let unit := Ratio.scaled 1 10 exponent
  let below := value.num * unit.den / (value.den * unit.num)
  let lower : Decimal := ⟨below, exponent⟩
  let upper : Decimal := ⟨below + 1, exponent⟩
  let fits := fun d : Decimal => 0 < d.digits && i.contains d.ratio
  -- twice the distance from the lower neighbour, in units of the grid, against one unit
  let twice := 2 * (value.num * unit.den - below * (value.den * unit.num))
  let whole := value.den * unit.num
  match fits lower, fits upper with
  | true, true =>
    if twice < whole ∨ twice = whole ∧ below % 2 = 0 then some lower else some upper
  | true, false => some lower
  | false, true => some upper
  | false, false => none

/-- The decimal without the zeros at its end; `fuel` bounds their number. -/
def trim : (fuel : Nat) → Decimal → Decimal
  | 0, d => d
  | fuel + 1, d => if d.digits % 10 = 0 then trim fuel ⟨d.digits / 10, d.exponent + 1⟩ else d

/-- The decimal with the fewest digits that rounds to a positive double.  Seventeen digits always
suffice. -/
def shortest (b : Binary) : Decimal :=
  let value := Ratio.scaled b.mantissa 2 b.exponent
  let found := (List.range 17).findSome? fun (n : Nat) =>
    onGrid? value b.interval (value.magnitude - n)
  trim 20 (found.getD ⟨b.mantissa, 0⟩)

end Decimal

end PartExchange
