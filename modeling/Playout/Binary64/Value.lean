/-!
# Exact values of floating-point numbers

A finite number is a sign, a whole number and a power of two (`Exact`), so that
rounding to whole numbers, and the decimal texts of the other modules of this
folder, are exact integer arithmetic.
-/
namespace Playout.Binary64

/-- The number `± mantissa · 2 ^ exponent`. -/
structure Exact where
  negative : Bool
  mantissa : Nat
  exponent : Int
  deriving DecidableEq, Repr

/-- What a floating-point number denotes. -/
inductive Value where
  | notANumber
  | infinite (negative : Bool)
  | finite (exact : Exact)
  deriving DecidableEq, Repr

/-- The value that sixty-four bits denote: a sign, eleven bits of exponent and fifty-two of fraction. -/
def valueOfBits (bits : Nat) : Value :=
  let negative := bits / Nat.pow 2 63 % 2 == 1
  let exponent : Nat := bits / Nat.pow 2 52 % Nat.pow 2 11
  let fraction : Nat := bits % Nat.pow 2 52
  if exponent = 2047 then if fraction = 0 then .infinite negative else .notANumber
  else if exponent = 0 then .finite ⟨negative,fraction,-1074⟩
  else .finite ⟨negative,Nat.pow 2 52 + fraction,(exponent : Int) - 1075⟩

def value (x : Float) : Value := valueOfBits x.toBits.toNat

/-- How a fraction becomes a whole number. -/
inductive Rounding where
  /-- Toward zero. -/
  | truncate
  | floor
  | ceiling
  /-- To the nearest, a half away from zero. -/
  | nearest

/-- The quotient of two natural numbers, a half rounded up. -/
def roundHalfUp (num den : Nat) : Nat := (2 * num + den) / (2 * den)

/-- The quotient of two natural numbers, a half rounded to the even neighbour. -/
def roundHalfEven (num den : Nat) : Nat :=
  let quotient := num / den
  let twice := 2 * (num % den)
  if twice < den then quotient
  else if den < twice then quotient + 1
  else if quotient % 2 = 0 then quotient else quotient + 1

/-- The quotient of two natural numbers, rounded up. -/
def ceilDiv (num den : Nat) : Nat := (num + den - 1) / den

def Exact.ratio (x : Exact) : Nat × Nat :=
  if 0 ≤ x.exponent then (x.mantissa * Nat.pow 2 x.exponent.toNat,1)
  else (x.mantissa,Nat.pow 2 (-x.exponent).toNat)

/-- The value rounded to a whole number. -/
def Exact.round (rounding : Rounding) (x : Exact) : Int :=
  let (num,den) := x.ratio
  let magnitude := match rounding with
    | .truncate => num / den
    | .floor => if x.negative then ceilDiv num den else num / den
    | .ceiling => if x.negative then num / den else ceilDiv num den
    | .nearest => roundHalfUp num den
  if x.negative then -(magnitude : Int) else magnitude

/-- A whole number moved to the nearer end of a range that it lies outside of. -/
def clamp (least greatest : Int) (i : Int) : Int := max least (min greatest i)

/-- A floating-point number as a whole number of a range: rounded, then moved into the range; what is not a number
    becomes zero. -/
def toRange (rounding : Rounding) (least greatest : Int) (x : Float) : Int :=
  match value x with
  | .notANumber => 0
  | .infinite negative => if negative then least else greatest
  | .finite exact => clamp least greatest (exact.round rounding)

theorem toRange_bounds {least greatest : Int} (low : least ≤ 0) (high : 0 ≤ greatest) (rounding : Rounding) (x : Float) :
    least ≤ toRange rounding least greatest x ∧ toRange rounding least greatest x ≤ greatest := by
  rw [toRange]
  cases value x with
  | notANumber => exact ⟨low,high⟩
  | infinite negative =>
    dsimp only
    split
    · exact ⟨Int.le_refl _,Int.le_trans low high⟩
    · exact ⟨Int.le_trans low high,Int.le_refl _⟩
  | finite exact =>
    dsimp only
    rw [clamp]
    omega

/-- The greater of two numbers, where anything is greater than what is not a number. -/
def greater (x y : Float) : Float :=
  if x.isNaN then y
  else if y.isNaN then x
  else if x < y then y
  else x

/-- The greatest of some numbers, at least zero. -/
def greatestOf (xs : List Float) : Float := xs.foldl greater 0.0

end Playout.Binary64
