import Playout.Binary64.Value
import Playout.Text.Numeral

/-!
# Shortest decimals

The decimal with the fewest digits that reads back as the same number, and of
those with that many digits the nearest one. It is written without an exponent.

The real numbers that read back as `m · 2 ^ q` form an interval around it that
contains its ends if and only if `m` is even. If the interval contains a point
of a decimal grid then it contains one of the two grid points next to the
number, so the digits are found by testing these two points on finer and finer
grids.
-/
namespace Playout.Binary64

/-- A decimal number `digits · 10 ^ exponent`. -/
structure Decimal where
  digits : Nat
  exponent : Int
  deriving DecidableEq, Repr

/-- The reals that round to a positive number, as `low / scale` to `high / scale` around `centre / scale`. -/
structure Interval where
  low : Nat
  centre : Nat
  high : Nat
  scale : Nat
  closed : Bool

/-- The interval of the reals that round to `x`. The gap below a power of two is half the gap above it, save at the
    least exponent. -/
def Exact.interval (x : Exact) : Interval :=
  let narrow := x.mantissa = Nat.pow 2 52 ∧ x.exponent ≠ -1074
  -- four units to the last bit, so that the narrow gap's half is a whole number
  let low := if narrow then 4 * x.mantissa - 1 else 4 * x.mantissa - 2
  let high := 4 * x.mantissa + 2
  let e := x.exponent - 2
  let up := Nat.pow 2 e.toNat
  ⟨low * up,4 * x.mantissa * up,high * up,Nat.pow 2 (-e).toNat,x.mantissa % 2 = 0⟩

/-- Whether `num / den` lies in an interval. -/
def Interval.contains (i : Interval) (num den : Nat) : Bool :=
  if i.closed then i.low * den ≤ num * i.scale && num * i.scale ≤ i.high * den
  else i.low * den < num * i.scale && num * i.scale < i.high * den

/-- The grid point nearest to the centre among the two next to it, if one lies in the interval. The grid has the points
    `k · 10 ^ exponent`; of two equally near ones the upper is taken. -/
def Interval.gridPoint? (i : Interval) (exponent : Int) : Option Decimal :=
  let up := Nat.pow 10 exponent.toNat
  let down := Nat.pow 10 (-exponent).toNat
  let below := i.centre * down / (i.scale * up)
  let above := below + 1
  let belowIn := i.contains (below * up) down
  let aboveIn := i.contains (above * up) down
  -- twice the centre against the sum of the two neighbours
  let nearBelow := 2 * i.centre * down < (below + above) * up * i.scale
  if belowIn && (nearBelow || !aboveIn) then some ⟨below,exponent⟩
  else if aboveIn then some ⟨above,exponent⟩
  else none

/-- The first grid with a point in the interval, from `exponent` on downwards. -/
def Interval.search (i : Interval) : Nat → Int → Decimal
  | 0, exponent => ⟨i.centre * Nat.pow 10 (-exponent).toNat / (i.scale * Nat.pow 10 exponent.toNat),exponent⟩
  | fuel + 1, exponent =>
    match i.gridPoint? exponent with
    | some d => d
    | none => i.search fuel (exponent - 1)

/-- The number of decimal digits before the point of a quotient, at least one. -/
def wholeDigits (num den : Nat) : Nat := (Text.decimal (num / den)).length

/-- The shortest decimal of a positive number. No number needs a grid finer than seventeen places below its first digit,
    and no first digit lies below the 324th place. -/
def Exact.shortest (x : Exact) : Decimal :=
  let i := x.interval
  i.search 700 (wholeDigits i.high i.scale)

/-- A decimal without trailing zeros among its digits. -/
def Decimal.strip : Nat → Decimal → Decimal
  | fuel + 1, d => if d.digits ≠ 0 ∧ d.digits % 10 = 0 then strip fuel ⟨d.digits / 10,d.exponent + 1⟩ else d
  | 0, d => d

def Decimal.positional (d : Decimal) : List Char :=
  let digits := Text.decimal d.digits
  if 0 ≤ d.exponent then digits ++ List.replicate d.exponent.toNat '0'
  else
    let places := (-d.exponent).toNat
    let padded := List.replicate (places + 1 - digits.length) '0' ++ digits
    padded.take (padded.length - places) ++ '.' :: padded.drop (padded.length - places)

/-- A number in the fewest digits that read back, without an exponent. -/
def shortest (x : Float) : List Char :=
  match value x with
  | .notANumber => "NaN".toList
  | .infinite negative => if negative then "-inf".toList else "inf".toList
  | .finite exact =>
    let text := if exact.mantissa = 0 then ['0'] else (exact.shortest.strip 800).positional
    if exact.negative then '-' :: text else text

end Playout.Binary64
