import Playout.Binary64.Value
import Playout.Text.Numeral

/-!
# Decimals with a fixed number of places

The exact decimal expansion of a number, rounded at the last place to the
nearest, a half to the even neighbour. The sign of a negative zero is written.
-/
namespace Playout.Binary64

/-- A natural number of units of the last place, written with a point before `places` digits. -/
def placeUnits (places units : Nat) : List Char :=
  let digits := Text.decimal units
  let padded := List.replicate (places + 1 - digits.length) '0' ++ digits
  if places = 0 then padded
  else padded.take (padded.length - places) ++ '.' :: padded.drop (padded.length - places)

/-- The number of units of the last place nearest to the absolute value. -/
def Exact.units (places : Nat) (x : Exact) : Nat :=
  let (num,den) := x.ratio
  roundHalfEven (num * Nat.pow 10 places) den

def fixed (places : Nat) (x : Float) : List Char :=
  match value x with
  | .notANumber => "NaN".toList
  | .infinite negative => if negative then "-inf".toList else "inf".toList
  | .finite exact =>
    let text := placeUnits places (exact.units places)
    if exact.negative then '-' :: text else text

end Playout.Binary64
