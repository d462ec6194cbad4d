import Playout.Text.Split
import Playout.Word

/-!
# Decimal numerals

Whole numbers as decimal text. A reader takes at least one digit and nothing
else, save one leading plus sign, or for signed numbers a minus sign; a number
outside the range that the reader is given is refused.
-/
namespace Playout.Text

def digitValue? (c : Char) : Option Nat :=
  if '0' ≤ c ∧ c ≤ '9' then some (c.toNat - '0'.toNat) else none

/-- Continues a decimal numeral whose digits so far denote `value`. -/
def foldDigits? (value : Nat) : List Char → Option Nat
  | [] => some value
  | c :: cs => (digitValue? c).bind fun d => foldDigits? (10 * value + d) cs

def digits? : List Char → Option Nat
  | [] => none
  | cs => foldDigits? 0 cs

/-- The number of a numeral with an optional plus sign, if it is at most `greatest`. -/
def natural? (greatest : Nat) (s : List Char) : Option Nat :=
  let unsigned := match s with
    | '+' :: cs => cs
    | cs => cs
  (digits? unsigned).filter (· ≤ greatest)

/-- The number of a numeral with an optional sign, if it lies between `least` and `greatest`. -/
def integer? (least greatest : Int) (s : List Char) : Option Int :=
  let value := match s with
    | '-' :: cs => (digits? cs).map fun n => -(n : Int)
    | '+' :: cs => (digits? cs).map Int.ofNat
    | cs => (digits? cs).map Int.ofNat
  value.filter fun i => least ≤ i && i ≤ greatest

/-- The decimal digits of a number, without leading zeros. -/
def decimal (n : Nat) : List Char := Nat.toDigits 10 n

/-- A number in base sixteen with lower-case digits, padded with zeros to `width` digits. -/
def hexadecimal (width n : Nat) : List Char :=
  let digits := Nat.toDigits 16 n
  List.replicate (width - digits.length) '0' ++ digits

def hexValue? (c : Char) : Option Nat :=
  if '0' ≤ c ∧ c ≤ '9' then some (c.toNat - '0'.toNat)
  else if 'a' ≤ c ∧ c ≤ 'f' then some (c.toNat - 'a'.toNat + 10)
  else if 'A' ≤ c ∧ c ≤ 'F' then some (c.toNat - 'A'.toNat + 10)
  else none

end Playout.Text
