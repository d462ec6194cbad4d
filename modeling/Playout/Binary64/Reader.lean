import Playout.Text.Numeral
import Playout.Text.Split

/-!
# Decimals read as floating-point numbers

A numeral is an optional sign, digits with an optional point and an optional
exponent; at least one digit stands before or after the point. The result is the
nearest floating-point number. `inf`, `infinity` and `nan` are read in any case.
-/
namespace Playout.Binary64

/-- The number `± digits · 10 ^ exponent`, rounded to the nearest. Exponents far outside the range of the format are
    decided by the place of the first digit alone. -/
def ofDecimal (negative : Bool) (digits : Nat) (exponent : Int) : Float :=
  let magnitude : Float :=
    if digits = 0 then 0.0
    else
      let place := ((Text.decimal digits).length : Int) + exponent
      if 400 < place then 1.0 / 0.0
      else if place < -400 then 0.0
      else OfScientific.ofScientific digits (exponent < 0) exponent.natAbs
  if negative then -magnitude else magnitude

def ofInt (i : Int) : Float := ofDecimal (i < 0) i.natAbs 0

/-- The digits of a numeral and the place of its last digit. -/
structure Mantissa where
  digits : List Char
  exponent : Int

def isWord (word s : List Char) : Bool := s.map Char.toLower == word

/-- The parts before and after the exponent mark of a numeral. -/
def splitExponent (s : List Char) : List Char × Option (List Char) :=
  match s.span fun c => c ≠ 'e' && c ≠ 'E' with
  | (mantissa,_ :: exponent) => (mantissa,some exponent)
  | (mantissa,[]) => (mantissa,none)

/-- Digits with an optional point, as digits and the place of the last one. -/
def mantissa? (s : List Char) : Option Mantissa :=
  let (whole,fraction) := match Text.splitFirst? '.' s with
    | some (whole,fraction) => (whole,fraction)
    | none => (s,[])
  let digits := whole ++ fraction
  if digits ≠ [] ∧ digits.all fun c => (Text.digitValue? c).isSome then
    some ⟨digits,-(fraction.length : Int)⟩
  else none

def exponent? (s : List Char) : Option Int :=
  match s with
  | '-' :: cs => (Text.digits? cs).map fun n => -(n : Int)
  | '+' :: cs => (Text.digits? cs).map Int.ofNat
  | cs => (Text.digits? cs).map Int.ofNat

def unsigned? (negative : Bool) (s : List Char) : Option Float :=
  if isWord "inf".toList s || isWord "infinity".toList s then
    some (if negative then -(1.0 / 0.0) else 1.0 / 0.0)
  else if isWord "nan".toList s then some (0.0 / 0.0)
  else do
    let (body,mark) := splitExponent s
    let mantissa ← mantissa? body
    let exponent ← match mark with
      | some text => exponent? text
      | none => some 0
    let digits ← Text.digits? mantissa.digits
    some (ofDecimal negative digits (mantissa.exponent + exponent))

/-- The number of a numeral, a word for infinity, or `nan`. -/
def read? (s : List Char) : Option Float :=
  match s with
  | '-' :: cs => unsigned? true cs
  | '+' :: cs => unsigned? false cs
  | cs => unsigned? false cs

end Playout.Binary64
