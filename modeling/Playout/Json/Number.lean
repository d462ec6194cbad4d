import Playout.Binary64.Reader
import Playout.Json.Value
import Playout.Word

/-!
# JSON numbers

A number without point and exponent that fits sixty-four bits is a whole number,
save `-0`; every other number is a floating-point number. Such a number is its
leading digits, as many as fit sixty-four bits, times or over a power of ten,
each of these operations rounded once; a number too large for the format is
refused.
-/
namespace Playout.Json

/-- The parts of a number's text. -/
structure Numeral where
  negative : Bool
  whole : List Char
  fraction : Option (List Char)
  exponent : Option (List Char)

def Numeral.ofText (s : List Char) : Numeral :=
  let (negative,s) := match s with
    | '-' :: cs => (true,cs)
    | cs => (false,cs)
  let (mantissa,exponent) := Binary64.splitExponent s
  match Text.splitFirst? '.' mantissa with
  | some (whole,fraction) => ⟨negative,whole,some fraction,exponent⟩
  | none => ⟨negative,mantissa,none,exponent⟩

/-- Leading digits, and the power of ten that the digits left out and the point amount to. -/
structure Significand where
  digits : Nat
  exponent : Int
  full : Bool

/-- Takes one digit more if the number still fits sixty-four bits; after the first one that does not, no digit is taken.
    `left` and `taken` are what a digit left out or taken adds to the exponent. -/
def Significand.push (left taken : Int) (s : Significand) (c : Char) : Significand :=
  let next := 10 * s.digits + (Text.digitValue? c).getD 0
  if s.full || max64 < next then { s with exponent := s.exponent + left, full := true }
  else { s with digits := next, exponent := s.exponent + taken }

/-- The leading digits of a number. The digits after the point are tried afresh. -/
def Numeral.significand (n : Numeral) : Significand :=
  let whole := n.whole.foldl (Significand.push 1 0) ⟨0,0,false⟩
  (n.fraction.getD []).foldl (Significand.push 0 (-1)) { whole with full := false }

/-- A power of ten up to the greatest that the format holds. -/
def power (n : Nat) : Float := OfScientific.ofScientific 1 false n

/-- A number over powers of ten; each step takes away 308 places. -/
def scaleDown : Nat → Float → Nat → Float
  | fuel + 1, x, places =>
    if places ≤ 308 then x / power places
    else if x == 0.0 then x
    else scaleDown fuel (x / power 308) (places - 308)
  | 0, x, _ => x

/-- The number `digits · 10 ^ exponent` by one rounded product or quotient. -/
def scaled? (digits : Nat) (exponent : Int) : Option Float :=
  let x := Binary64.ofInt digits
  if 0 ≤ exponent then
    if exponent ≤ 308 then
      let y := x * power exponent.toNat
      if y.isInf then none else some y
    else if x == 0.0 then some x
    else none
  else some (scaleDown 10 x exponent.natAbs)

/-- The exponent that a number writes; one beyond thirty-two bits is given as `none` with its sign. -/
def Numeral.written (n : Numeral) : Bool × Option Nat :=
  match n.exponent with
  | none => (true,some 0)
  | some ('-' :: ds) => (false,(Text.digits? ds).filter fun e => (e : Int) ≤ maxSigned32)
  | some ('+' :: ds) => (true,(Text.digits? ds).filter fun e => (e : Int) ≤ maxSigned32)
  | some ds => (true,(Text.digits? ds).filter fun e => (e : Int) ≤ maxSigned32)

/-- The floating-point number of a text with a point or an exponent, or with too many digits. -/
def Numeral.float? (n : Numeral) : Option Float :=
  let s := n.significand
  let magnitude := match n.written with
    | (true,some e) => scaled? s.digits (s.exponent + e)
    | (false,some e) => scaled? s.digits (s.exponent - e)
    | (true,none) => if s.digits = 0 then some 0.0 else none
    | (false,none) => some 0.0
  magnitude.map fun x => if n.negative then -x else x

def Numeral.int? (n : Numeral) : Option Int :=
  match n.fraction, n.exponent with
  | none, none => do
    let magnitude ← Text.digits? n.whole
    if n.negative then
      if magnitude = 0 ∨ Nat.pow 2 63 < magnitude then none else some (-(magnitude : Int))
    else if max64 < magnitude then none else some magnitude
  | _, _ => none

def int? (least greatest : Int) : Json → Option Int
  | .number text => ((Numeral.ofText text).int?).filter fun i => least ≤ i && i ≤ greatest
  | _ => none

def signed64? (j : Json) : Option Signed64 := (j.int? minSigned64 maxSigned64).bind Signed64.ofInt?

def nat? (greatest : Nat) (j : Json) : Option Nat := (j.int? 0 greatest).map Int.toNat

def float? : Json → Option Float
  | .number text =>
    let n := Numeral.ofText text
    match n.int? with
    | some i => some (Binary64.ofInt i)
    | none => n.float?
  | _ => none

end Playout.Json
