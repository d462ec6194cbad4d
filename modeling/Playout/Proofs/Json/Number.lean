import Mathlib.Data.List.TakeWhile
import Playout.Json.Number
import Playout.Proofs.Json.Reader
import Playout.Proofs.Text.Numeral
import Playout.Proofs.Text.Split

/-!
Whole numbers are written by the grammar of numbers and read as what they are, over all of sixty-four bits and below
zero (`int?_int`, `nat?_nat`).
-/
namespace Playout.Json
open Playout.Text

/-! ### Decimal digits -/

/-- The first digit is zero in zero alone. -/
theorem head?_decimal {n : Nat} (positive : 0 < n) : (decimal n).head? ≠ some '0' := by
  -- The first digit of a number is that of its tenth, down to a single digit.
  induction n using Nat.strong_induction_on with
  | _ n ih =>
    rw [decimal,Nat.toDigits_eq_if (by decide)]
    by_cases small : n < 10
    · have all : ∀ n < 10, 0 < n → n.digitChar ≠ '0' := by decide
      rw [if_pos small]
      exact fun zero => all n small positive (Option.some.inj zero)
    · rw [if_neg small,List.head?_append_of_ne_nil _ Nat.toDigits_ne_nil]
      exact ih (n / 10) (by omega) (by omega)

theorem toNat_of_isDigit {c : Char} (digit : c.isDigit = true) : 0x30 ≤ c.toNat ∧ c.toNat ≤ 0x39 := by
  simp only [Char.isDigit,Bool.and_eq_true,decide_eq_true_eq,ge_iff_le,UInt32.le_iff_toNat_le] at digit
  exact digit

/-- The digits of a number as bytes. -/
def decimalBytes (n : Nat) : List UInt8 := (decimal n).map fun c => c.toNat.toUInt8

theorem ofNat_toUInt8 {c : Char} (small : c.toNat < 0x100) : Char.ofNat c.toNat.toUInt8.toNat = c := by
  rw [toNat_toUInt8 small,Char.ofNat_toNat]

theorem map_decimalBytes (n : Nat) : (decimalBytes n).map (fun d => Char.ofNat d.toNat) = decimal n := by
  rw [decimalBytes,List.map_map]
  refine (List.map_congr_left fun c member => ?_).trans (List.map_id _)
  have := toNat_of_isDigit (isDigit_of_mem_decimal member)
  exact ofNat_toUInt8 (by omega)

theorem isWhole_decimalBytes (n : Nat) : IsWhole (decimalBytes n) := by
  rcases Nat.eq_zero_or_pos n with rfl | positive
  · exact .inl (by decide)
  · refine .inr ⟨⟨?_,?_⟩,?_⟩
    · exact fun none => Nat.toDigits_ne_nil (List.map_eq_nil_iff.mp none)
    · intro b member
      obtain ⟨c,digit,rfl⟩ := List.mem_map.mp member
      have := toNat_of_isDigit (isDigit_of_mem_decimal digit)
      simp only [isDigit,Bool.and_eq_true,decide_eq_true_eq,UInt8.le_iff_toNat_le,toNat_toUInt8 (show c.toNat < 256 by omega)]
      exact this
    · intro zero
      rw [decimalBytes,List.head?_map,Option.map_eq_some_iff] at zero
      obtain ⟨c,first,same⟩ := zero
      have := toNat_of_isDigit (isDigit_of_mem_decimal (List.mem_of_mem_head? first))
      have restored := ofNat_toUInt8 (c := c) (by omega)
      rw [same] at restored
      exact head?_decimal positive (restored ▸ first)

theorem proper_nat (n : Nat) : (Json.nat n).Proper := by
  have grammar := IsNumber.intro (show [] ∈ [[],[0x2D]] by simp) (isWhole_decimalBytes n) (.inl rfl) (.inl rfl)
  simp only [List.append_nil,List.nil_append] at grammar
  have proper := Proper.number grammar
  rwa [map_decimalBytes] at proper

theorem proper_int (i : Int) : (Json.int i).Proper := by
  rw [Json.int]
  by_cases negative : i < 0
  · have grammar := IsNumber.intro (show [0x2D] ∈ [[],[0x2D]] by simp) (isWhole_decimalBytes i.natAbs) (.inl rfl) (.inl rfl)
    simp only [List.append_nil,List.cons_append,List.nil_append] at grammar
    have proper := Proper.number grammar
    rw [List.map_cons,map_decimalBytes] at proper
    rwa [if_pos negative]
  · rw [if_neg negative]
    exact proper_nat i.natAbs

/-! ### Whole numbers -/

theorem span_digits {ds : List Char} (digits : ∀ c ∈ ds, c.isDigit = true) :
    ds.span (fun c => c ≠ 'e' && c ≠ 'E') = (ds,[]) := by
  have all : ∀ c ∈ ds, (c ≠ 'e' && c ≠ 'E') = true := by
    intro c member
    have := toNat_of_isDigit (digits c member)
    simp only [ne_eq,Bool.and_eq_true,decide_eq_true_eq]
    refine ⟨?_,?_⟩ <;> rintro rfl <;> revert this <;> decide
  rw [List.span_eq_takeWhile_dropWhile,List.takeWhile_eq_self_iff.mpr all,List.dropWhile_eq_nil_iff.mpr all]

/-- Digits alone, with a sign or without, are the whole part of a number without fraction and exponent. -/
theorem ofText_digits {ds : List Char} (digits : ∀ c ∈ ds, c.isDigit = true) (some_digit : ds ≠ []) :
    Numeral.ofText ds = ⟨false,ds,none,none⟩ ∧ Numeral.ofText ('-' :: ds) = ⟨true,ds,none,none⟩ := by
  have absent {c : Char} (other : c.isDigit = false) : c ∉ ds := fun member => by
    rw [digits c member] at other
    cases other
  have unsigned : ∀ rest, ds ≠ '-' :: rest := by
    rintro rest rfl
    exact absent (c := '-') rfl (.head _)
  have point : splitFirst? '.' ds = none := splitFirst?_of_not_mem (absent rfl)
  have scale : Binary64.splitExponent ds = (ds,none) := by
    rw [Binary64.splitExponent,span_digits digits]
  refine ⟨?_,?_⟩
  · unfold Numeral.ofText
    split
    rename_i negative s parts
    split at parts
    · exact absurd rfl (unsigned _)
    · cases parts
      simp only [scale,point]
  · simp only [Numeral.ofText,scale,point]

theorem int?_int {least greatest i : Int} (bounds : least ≤ i ∧ i ≤ greatest) (negative : minSigned64 ≤ i)
    (positive : i ≤ max64) : (Json.int i).int? least greatest = some i := by
  have digits (n : Nat) : Numeral.ofText (decimal n) = ⟨false,decimal n,none,none⟩ ∧
      Numeral.ofText ('-' :: decimal n) = ⟨true,decimal n,none,none⟩ :=
    ofText_digits (fun c => isDigit_of_mem_decimal) Nat.toDigits_ne_nil
  have kept : (some i).filter (fun i => least ≤ i && i ≤ greatest) = some i :=
    Option.filter_some_pos (by simpa using bounds)
  by_cases below : i < 0
  · have small : ¬ (i.natAbs = 0 ∨ Nat.pow 2 63 < i.natAbs) := by
      rw [minSigned64] at negative
      have : Nat.pow 2 63 = 0x8000000000000000 := by decide
      omega
    have value : -(i.natAbs : Int) = i := by omega
    rw [Json.int,if_pos below,Json.int?,(digits _).2]
    simp only [Numeral.int?,decimal,digits?_toDigits,Option.bind_eq_bind,Option.bind_some,if_true,if_neg small,value]
    exact kept
  · have small : ¬ max64 < i.natAbs := by omega
    have value : (i.natAbs : Int) = i := by omega
    rw [Json.int,if_neg below,Json.int?,(digits _).1]
    simp only [Numeral.int?,decimal,digits?_toDigits,Option.bind_eq_bind,Option.bind_some,if_neg small,value,
      Bool.false_eq_true,if_false]
    exact kept

theorem nat_eq_int (n : Nat) : Json.nat n = Json.int n := by
  rw [Json.int,if_neg (by omega)]
  rfl

theorem nat?_nat {greatest n : Nat} (small : n ≤ greatest) (fits : n ≤ max64) :
    (Json.nat n).nat? greatest = some n := by
  rw [Json.nat?,nat_eq_int,int?_int ⟨by omega,by omega⟩ (by rw [minSigned64]; omega) (by omega)]
  rfl

/-- A number that is read lies between the bounds that it is read with. -/
theorem bounds_of_int? {least greatest i : Int} {j : Json} (read : j.int? least greatest = some i) :
    least ≤ i ∧ i ≤ greatest := by
  unfold Json.int? at read
  split at read
  · obtain ⟨_,kept⟩ := Option.filter_eq_some_iff.mp read
    simpa using kept
  · cases read

theorem bound_of_nat? {greatest n : Nat} {j : Json} (read : j.nat? greatest = some n) : n ≤ greatest := by
  obtain ⟨i,whole,rfl⟩ := Option.map_eq_some_iff.mp read
  have := bounds_of_int? whole
  omega

end Playout.Json
