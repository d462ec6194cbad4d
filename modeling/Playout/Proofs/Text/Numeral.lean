import Playout.Text.Numeral

/-!
Decimal numerals denote what they are written for.
-/
namespace Playout.Text

theorem digitValue?_eq (c : Char) : digitValue? c = if c.isDigit then some (c.toNat - '0'.toNat) else none := by
  have same : ('0' ≤ c ∧ c ≤ '9') ↔ c.isDigit = true := by
    simp only [Char.isDigit,ge_iff_le,Bool.and_eq_true,decide_eq_true_eq,Char.le_def]
  simp only [digitValue?,same]

/-- Digits are read as they count. -/
theorem foldDigits?_eq (cs : List Char) (value : Nat) :
    foldDigits? value cs = if cs.all Char.isDigit then some (Nat.ofDigitChars 10 cs value) else none := by
  induction cs generalizing value with
  | nil => rfl
  | cons c cs ih =>
    rw [foldDigits?,digitValue?_eq]
    by_cases digit : c.isDigit
    · simp only [digit,if_true,Option.bind_some,ih,List.all_cons,Bool.true_and,Nat.ofDigitChars_cons]
    · simp [digit]

theorem digits?_eq {cs : List Char} (some_digit : cs ≠ []) :
    digits? cs = if cs.all Char.isDigit then some (Nat.ofDigitChars 10 cs 0) else none := by
  cases cs with
  | nil => exact absurd rfl some_digit
  | cons c cs => exact foldDigits?_eq (c :: cs) 0

theorem digits?_eq_some {cs : List Char} {n : Nat} :
    digits? cs = some n ↔ cs ≠ [] ∧ (∀ c ∈ cs, c.isDigit = true) ∧ Nat.ofDigitChars 10 cs 0 = n := by
  by_cases none : cs = []
  · subst none
    simp [digits?]
  · rw [digits?_eq none]
    simp [none]

theorem isDigit_of_mem_decimal {n : Nat} {c : Char} (member : c ∈ decimal n) : c.isDigit = true :=
  Nat.isDigit_of_mem_toDigits (by decide) (by decide) member

theorem isDigit_of_mem_toString {n : Nat} {c : Char} (member : c ∈ (toString n).toList) : c.isDigit = true := by
  rw [Nat.toString_eq_repr,Nat.toList_repr] at member
  exact isDigit_of_mem_decimal member

theorem sign_or_isDigit_of_mem_toString {i : Int} {c : Char} (member : c ∈ (toString i).toList) :
    c = '-' ∨ c.isDigit = true := by
  rw [Int.toString_eq_repr] at member
  cases i with
  | ofNat n => exact .inr (isDigit_of_mem_toString member)
  | negSucc n =>
    rw [Int.repr,String.toList_append,List.mem_append] at member
    exact member.imp List.mem_singleton.mp isDigit_of_mem_toString

/-- The decimal digits of a number denote it. -/
theorem digits?_toDigits (n : Nat) : digits? (Nat.toDigits 10 n) = some n := by
  have digits : (Nat.toDigits 10 n).all Char.isDigit = true := by
    rw [List.all_eq_true]
    exact fun c member => isDigit_of_mem_decimal member
  rw [digits?_eq Nat.toDigits_ne_nil,if_pos digits,Nat.ofDigitChars_ten_toDigits]

end Playout.Text
