import Mathlib.Algebra.Field.Rat
import Playout.Binary64.Fixed
import Playout.Binary64.Reader
import Playout.Proofs.Text.Numeral
import Playout.Proofs.Text.Split

/-!
A decimal with a fixed number of places denotes the units of its last place that it
is written for. What a decimal denotes is said by the reader of numerals itself
(`mantissa?`), before anything is rounded to a floating-point number.
-/
namespace Playout.Binary64

/-- The number that digits with an optional point denote. -/
def rational? (text : List Char) : Option ℚ :=
  (mantissa? text).bind fun m => (Text.digits? m.digits).map fun (n : Nat) => (n : ℚ) * 10 ^ m.exponent

variable {places units : Nat}

/-- Digits around a point denote what they count, in units of the last place. -/
theorem rational?_point {whole fraction : List Char} {n : Nat} (digits : ∀ c ∈ whole ++ fraction, c.isDigit = true)
    (count : Text.digits? (whole ++ fraction) = some n) :
    rational? (whole ++ '.' :: fraction) = some ((n : ℚ) / 10 ^ fraction.length) := by
  have first : '.' ∉ whole := fun here => absurd (digits '.' (List.mem_append_left _ here)) (by decide)
  have some_digit : whole ++ fraction ≠ [] := by
    intro none
    rw [none] at count
    cases count
  have read : ∀ c ∈ whole ++ fraction, (Text.digitValue? c).isSome = true := by
    intro c member
    rw [Text.digitValue?_eq,if_pos (digits c member)]
    rfl
  have mantissa : mantissa? (whole ++ '.' :: fraction) = some ⟨whole ++ fraction,-(fraction.length : Int)⟩ := by
    rw [mantissa?,Text.splitFirst?_append first]
    exact if_pos ⟨some_digit,List.all_eq_true.mpr read⟩
  rw [rational?,mantissa,Option.bind_some,count,Option.map_some,zpow_neg,zpow_natCast,div_eq_mul_inv]

/-- Zeros before a number do not change it. -/
theorem digits?_padded (zeros n : Nat) : Text.digits? (List.replicate zeros '0' ++ Text.decimal n) = some n := by
  have some_digit : List.replicate zeros '0' ++ Text.decimal n ≠ [] :=
    List.append_ne_nil_of_right_ne_nil _ Nat.toDigits_ne_nil
  have digits : (List.replicate zeros '0' ++ Text.decimal n).all Char.isDigit = true := by
    rw [List.all_eq_true]
    intro c member
    rcases List.mem_append.mp member with zero | digit
    · rw [List.eq_of_mem_replicate zero]
      rfl
    · exact Text.isDigit_of_mem_decimal digit
  rw [Text.digits?_eq some_digit,if_pos digits,Nat.ofDigitChars_append,Nat.ofDigitChars_replicate_zero,Nat.mul_zero,
    Text.decimal,Nat.ofDigitChars_ten_toDigits]

/-- Units of the last place are written so that they are read as such. -/
theorem rational?_placeUnits (some_place : places ≠ 0) :
    rational? (placeUnits places units) = some ((units : ℚ) / 10 ^ places) := by
  rw [placeUnits,if_neg some_place]
  generalize zeros : places + 1 - (Text.decimal units).length = zeros'
  have count := digits?_padded zeros' units
  have long : places < (List.replicate zeros' '0' ++ Text.decimal units).length := by
    rw [List.length_append,List.length_replicate]
    omega
  have digits : ∀ c ∈ List.replicate zeros' '0' ++ Text.decimal units, c.isDigit = true := by
    intro c member
    by_contra other
    rw [Text.digits?_eq (List.length_pos_iff.mp (by omega)),if_neg] at count
    · cases count
    · exact fun all => other (List.all_eq_true.mp all c member)
  generalize List.replicate zeros' '0' ++ Text.decimal units = padded at count long digits
  have whole := List.take_append_drop (padded.length - places) padded
  rw [rational?_point (whole.symm ▸ digits) (whole.symm ▸ count),List.length_drop,Nat.sub_sub_self (Nat.le_of_lt long)]

/-- What is written for a number that is not negative is the nearest multiple of the last place. -/
theorem rational?_fixed {x : Float} {exact' : Exact} (finite : value x = .finite exact') (positive : exact'.negative = false)
    (some_place : places ≠ 0) : rational? (fixed places x) = some ((exact'.units places : ℚ) / 10 ^ places) := by
  rw [fixed,finite]
  dsimp only
  rw [positive]
  exact rational?_placeUnits some_place

end Playout.Binary64
