import Mathlib.Algebra.Group.Nat.Even
import Mathlib.Algebra.Order.Field.Basic
import Mathlib.Algebra.Order.Field.Rat
import Mathlib.Tactic.Linarith
import Mathlib.Tactic.NormNum
import Mathlib.Tactic.Ring
import Playout.Encoding.Scale

/-!
A side that follows from the other one is the nearest even number to the length that keeps the aspect, as if the
arithmetic were exact. The product of two lengths fits into fifty-three bits. The quotient is rounded, but it stays on
its side of every odd number: a quotient that is not odd is further from the next odd number than its rounding goes
(`halved_nearest53`), and only odd numbers are half-way between even ones.
-/
namespace Playout

namespace Binary64

variable {num den n : Nat}

/-! ### Rounding to whole numbers -/

theorem roundHalfEven_one (n : Nat) : roundHalfEven n 1 = n := by
  simp [roundHalfEven,Nat.mod_one]

/-- A quotient that is not below a whole number is not rounded below it. -/
theorem le_roundHalfEven (positive : 0 < den) (above : n * den ≤ num) : n ≤ roundHalfEven num den := by
  have quotient : n ≤ num / den := (Nat.le_div_iff_mul_le positive).mpr above
  simp only [roundHalfEven]
  split_ifs <;> omega

/-- A quotient that is more than a half below a whole number is rounded below it. -/
theorem roundHalfEven_lt (positive : 0 < den) (below : 2 * num + den < 2 * (n * den)) : roundHalfEven num den < n := by
  have quotient : num / den < n := (Nat.div_lt_iff_lt_mul positive).mpr (by omega)
  by_cases last : num / den + 1 = n
  · have parts : num / den * den + num % den = num := Nat.div_add_mod' num den
    have next : n * den = num / den * den + den := by rw [← last,Nat.succ_mul]
    have small : 2 * (num % den) < den := by omega
    simp only [roundHalfEven,small,↓reduceIte]
    exact quotient
  · simp only [roundHalfEven]
    split_ifs <;> omega

theorem roundHalfUp_eq_iff (positive : 0 < den) :
    roundHalfUp num den = n ↔ 2 * n * den ≤ 2 * num + den ∧ 2 * num + den < 2 * (n + 1) * den := by
  have low : n * (2 * den) = 2 * n * den := by ring
  have high : 2 * (n + 1) * den = n * (2 * den) + 2 * den := by ring
  rw [roundHalfUp,Nat.div_eq_iff (by omega),high,← low]
  omega

theorem roundHalfUp_mono {num' : Nat} (less : num' ≤ num) : roundHalfUp num' den ≤ roundHalfUp num den :=
  Nat.div_le_div_right (by omega)

end Binary64

namespace Encoding

open Binary64 (roundHalfEven roundHalfUp)

variable {num den n w h t : Nat}

/-! ### Fifty-three bits -/

theorem bitLength_spec (positive : 0 < n) : 2 ^ bitLength n ≤ 2 * n ∧ n < 2 ^ bitLength n := by
  have some : n ≠ 0 := by omega
  have below := Nat.log2_self_le some
  have above := Nat.lt_log2_self (n := n)
  rw [bitLength,if_neg some]
  rw [Nat.pow_succ] at above ⊢
  exact ⟨by omega,above⟩

/-- A quotient of a number of fifty bits is rounded to a multiple of a power of two, which is so small that the quotient
    is at least `2 ^ 52` times it. -/
theorem nearest53_eq (some : 0 < num) (positive : 0 < den) (moderate : num ≤ 2 ^ 50) :
    ∃ s : Nat, nearest53 num den = (roundHalfEven (num * 2 ^ s) den,-(s : Int)) ∧ 2 ^ 52 * den ≤ num * 2 ^ s := by
  obtain ⟨numLow,numHigh⟩ := bitLength_spec some
  obtain ⟨_,denHigh⟩ := bitLength_spec positive
  have short : bitLength num ≤ 51 := by
    refine (Nat.pow_le_pow_iff_right (by decide : 1 < 2)).mp (Nat.le_trans numLow ?_)
    omega
  obtain ⟨shift,same⟩ : ∃ shift : Nat, (shift : Int) + 1 = 53 - ((bitLength num : Int) - bitLength den) :=
    ⟨52 + bitLength den - bitLength num,by omega⟩
  have tall : 2 ^ 52 * den ≤ num * 2 ^ (shift + 1) := by
    have length : 2 ^ bitLength num * 2 ^ (shift + 1) = 2 ^ 53 * 2 ^ bitLength den := by
      rw [← Nat.pow_add,← Nat.pow_add]
      congr 1
      omega
    have scaled := Nat.mul_le_mul_right (2 ^ (shift + 1)) numLow
    have wide := Nat.mul_le_mul_left (2 ^ 53) (Nat.le_of_lt denHigh)
    rw [length,Nat.mul_assoc] at scaled
    omega
  have nonneg : (0 : Int) ≤ (shift : Int) + 1 := by omega
  have toNat : ((shift : Int) + 1).toNat = shift + 1 := rfl
  rw [nearest53,← same]
  simp only [Nat.pow_eq,nonneg,if_true,toNat]
  by_cases large : 2 ^ 53 ≤ num * 2 ^ (shift + 1) / den
  · refine ⟨shift,?_,?_⟩
    · simp only [large,if_true,Int.add_sub_cancel,Int.natCast_nonneg,Int.toNat_natCast]
    · have double : num * 2 ^ (shift + 1) = 2 * (num * 2 ^ shift) := by ring
      have whole := (Nat.le_div_iff_mul_le positive).mp large
      omega
  · refine ⟨shift + 1,?_,tall⟩
    simp only [large,if_false,nonneg,if_true,toNat,Int.natCast_add,Int.natCast_one]

/-- A number of fifty bits is a number of fifty-three bits. -/
theorem nearest53_whole (some : 0 < num) (moderate : num ≤ 2 ^ 50) {p : Nat} {e : Int}
    (rounded : nearest53 num 1 = (p,e)) :
    (if 0 ≤ e then p * Nat.pow 2 e.toNat else p / Nat.pow 2 (-e).toNat) = num := by
  obtain ⟨s,result,_⟩ := nearest53_eq some Nat.one_pos moderate
  rw [result,Binary64.roundHalfEven_one] at rounded
  obtain ⟨rfl,rfl⟩ := Prod.mk.inj rounded
  rw [Int.neg_neg,Int.toNat_natCast,Nat.pow_eq,Nat.pow_eq]
  by_cases zero : s = 0
  · subst zero
    simp
  · rw [if_neg (by omega)]
    exact Nat.mul_div_cancel num (Nat.two_pow_pos s)

/-- Half of the rounded quotient goes to the same whole number as half of the exact one. An odd number that the quotient
    is below is further from it than the half of a unit that the quotient may be rounded up by. -/
theorem halved_nearest53 (some : 0 < num) (positive : 0 < den) (moderate : num ≤ 2 ^ 50) {q : Nat} {e : Int}
    (rounded : nearest53 num den = (q,e)) : halved q e = roundHalfUp num (2 * den) := by
  obtain ⟨s,result,fine⟩ := nearest53_eq some positive moderate
  rw [result] at rounded
  obtain ⟨rfl,rfl⟩ := Prod.mk.inj rounded
  generalize exact' : roundHalfUp num (2 * den) = k
  obtain ⟨low,high⟩ := (Binary64.roundHalfUp_eq_iff (Nat.mul_pos two_pos positive)).mp exact'
  -- a unit of the rounded quotient is at most a fourth of the distance between quotients with this denominator
  have unit : 4 * den ≤ 2 ^ s := by
    have scaled := Nat.mul_le_mul_right (2 ^ s) moderate
    omega
  have notBelow : 2 * k * 2 ^ s ≤ roundHalfEven (num * 2 ^ s) den + 2 ^ s := by
    cases k with
    | zero => simp
    | succ k =>
      have odd : (2 * k + 1) * den ≤ num := by linarith
      have reached : (2 * k + 1) * 2 ^ s ≤ roundHalfEven (num * 2 ^ s) den :=
        Binary64.le_roundHalfEven positive (by linarith [Nat.mul_le_mul_right (2 ^ s) odd])
      linarith
  have below : roundHalfEven (num * 2 ^ s) den < (2 * k + 1) * 2 ^ s := by
    have odd : num + 1 ≤ (2 * k + 1) * den := by linarith
    exact Binary64.roundHalfEven_lt positive (by linarith [Nat.mul_le_mul_right (2 ^ s) odd])
  have half : (-(-(s : Int) - 1)).toNat = s + 1 := by omega
  rw [halved,if_neg (by omega),half,Nat.pow_eq,Binary64.roundHalfUp_eq_iff (Nat.two_pow_pos _),Nat.pow_succ]
  constructor
  · linarith
  · linarith

/-! ### Even numbers -/

/-- The nearest even number to a quotient, the greater one of two. -/
def nearestEven (num den : Nat) : Nat := 2 * roundHalfUp num (2 * den)

theorem nearestEven_spec (num : Nat) (positive : 0 < den) :
    nearestEven num den * den ≤ num + den ∧ num < nearestEven num den * den + den := by
  have nearest : roundHalfUp num (2 * den) = roundHalfUp num (2 * den) := rfl
  obtain ⟨low,high⟩ := (Binary64.roundHalfUp_eq_iff (Nat.mul_pos two_pos positive)).mp nearest
  rw [nearestEven]
  constructor
  · linarith
  · linarith

theorem nearestEven_mono {num' : Nat} (less : num' ≤ num) : nearestEven num' den ≤ nearestEven num den :=
  Nat.mul_le_mul_left 2 (Binary64.roundHalfUp_mono less)

theorem two_le_nearestEven (positive : 0 < den) (one : den ≤ num) : 2 ≤ nearestEven num den := by
  have some : 1 ≤ roundHalfUp num (2 * den) := (Nat.le_div_iff_mul_le (by omega)).mpr (by omega)
  rw [nearestEven]
  omega

/-- An even number is the nearest one to itself. -/
theorem nearestEven_of_even (positive : 0 < den) (even : Even n) : nearestEven (den * n) den = n := by
  obtain ⟨half,rfl⟩ := even
  have exact' : roundHalfUp (den * (half + half)) (2 * den) = half :=
    (Binary64.roundHalfUp_eq_iff (by omega)).mpr ⟨by linarith,by linarith⟩
  rw [nearestEven,exact',Nat.two_mul]

/-- The floating-point arithmetic comes to the same even number as exact arithmetic. -/
theorem evenQuotient_eq (some : 0 < num) (positive : 0 < den) (moderate : num ≤ 2 ^ 50) (fits : num ≤ 2 ^ 31 * den) :
    evenQuotient num den = max 2 (nearestEven num den) := by
  have limit : roundHalfUp num (2 * den) ≤ 2 ^ 30 := by
    refine Nat.le_of_lt_succ ((Nat.div_lt_iff_lt_mul (by omega)).mpr ?_)
    omega
  have clamped : min max32 (2 * roundHalfUp num (2 * den)) = nearestEven num den := by
    rw [max32,nearestEven]
    omega
  cases product : nearest53 num 1 with
  | mk p pe =>
    cases quotient : nearest53 num den with
    | mk q qe =>
      have whole := nearest53_whole some moderate product
      have half := halved_nearest53 some positive moderate quotient
      simp only [evenQuotient,Nat.ne_of_gt some,if_false,product,whole,quotient,half,clamped]

/-! ### Sides -/

/-- A length small enough for its products with others to be exact. -/
def IsSide (n : Nat) : Prop := 1 ≤ n ∧ n ≤ 2 ^ 25

instance (n : Nat) : Decidable (IsSide n) := inferInstanceAs (Decidable (1 ≤ n ∧ n ≤ 2 ^ 25))

theorem IsSide.mul_le {m : Nat} (left : IsSide n) (right : IsSide m) : 0 < n * m ∧ n * m ≤ 2 ^ 50 := by
  refine ⟨Nat.mul_pos left.1 right.1,?_⟩
  calc n * m ≤ 2 ^ 25 * 2 ^ 25 := Nat.mul_le_mul left.2 right.2
    _ = 2 ^ 50 := by norm_num

theorem derivedSide_eq (target : IsSide t) (source : IsSide h) (across : IsSide w) (fits : t * w ≤ 2 ^ 31 * h) :
    derivedSide t h w = max 2 (nearestEven (t * w) h) := by
  obtain ⟨some,moderate⟩ := target.mul_le across
  rw [derivedSide,if_neg (Nat.ne_of_gt source.1),evenQuotient_eq some source.1 moderate fits]

/-- The side that follows from the source's own other side is the source's, if that is even. -/
theorem derivedSide_own (source : IsSide h) (across : IsSide w) (even : Even w) : derivedSide h h w = w := by
  have fits : h * w ≤ 2 ^ 31 * h := by
    rw [Nat.mul_comm]
    exact Nat.mul_le_mul_right h (Nat.le_trans across.2 (by norm_num))
  have two : 2 ≤ w := by
    obtain ⟨half,rfl⟩ := even
    have some := across.1
    omega
  rw [derivedSide_eq source source across fits,nearestEven_of_even source.1 even,max_eq_right two]

theorem natCast_ne_preserveAspect (n : Nat) : (n : Int) ≠ preserveAspect := by
  rw [preserveAspect]
  omega

theorem scale_to_height (w h : Nat) (target : IsSide t) : scale w h preserveAspect t = (derivedSide t h w,t) := by
  have some : 0 < t := target.1
  simp [scale,natCast_ne_preserveAspect,some]

theorem scale_to_width (w h : Nat) (target : IsSide t) : scale w h t preserveAspect = (t,derivedSide t w h) := by
  have some : 0 < t := target.1
  simp [scale,natCast_ne_preserveAspect,some]

theorem natCast_le_of_quotient {limit : Nat} (positive : 0 < den) (below : (num : ℚ) / den ≤ limit) :
    num ≤ limit * den := by
  rw [div_le_iff₀ (by exact_mod_cast positive)] at below
  exact_mod_cast below

/-- A side that follows from the other one is for the exact length that keeps the aspect: even, at least two, and not
    further from it than one if it is at least one itself. -/
structure IsEvenSide (side : Nat) (exact' : ℚ) : Prop where
  even : Even side
  atLeastTwo : 2 ≤ side
  near : 1 ≤ exact' → |(side : ℚ) - exact'| ≤ 1

theorem isEvenSide_nearestEven (num : Nat) (positive : 0 < den) :
    IsEvenSide (max 2 (nearestEven num den)) ((num : ℚ) / den) where
  even := by
    rw [nearestEven]
    rcases max_choice 2 (2 * roundHalfUp num (2 * den)) with two | more
    · rw [two]
      exact even_two
    · rw [more]
      exact even_two_mul _
  atLeastTwo := le_max_left _ _
  near := by
    intro one
    have positive' : (0 : ℚ) < den := by exact_mod_cast positive
    rw [one_le_div positive'] at one
    rw [max_eq_right (two_le_nearestEven positive (by exact_mod_cast one))]
    obtain ⟨low,high⟩ := nearestEven_spec num positive
    have low' : (nearestEven num den * den : ℚ) ≤ num + den := by exact_mod_cast low
    have high' : (num : ℚ) < nearestEven num den * den + den := by exact_mod_cast high
    rw [abs_le]
    constructor
    · rw [neg_le_sub_iff_le_add,div_le_iff₀ positive',add_mul]
      linarith
    · rw [sub_le_iff_le_add,← div_self (ne_of_gt positive'),← add_div,le_div_iff₀ positive']
      linarith

/-- Scaled to a height, a picture gets an even width of two or more that is within one of the width that keeps the
    aspect, and no less for a wider source or a greater height. Scaled to a width it gets the height that the picture
    turned on its side gets as width. A picture with even sides keeps its size when it is scaled to its own height or
    width. All of that is meant of exact lengths, for any sides whose products are exact and a width that fits. -/
theorem scaling_keeps_aspect (width : IsSide w) (height : IsSide h) (target : IsSide t) :
    ((t * w : ℚ) / h ≤ 2 ^ 31 → ∃ side, scale w h preserveAspect t = (side,t) ∧ IsEvenSide side (t * w / h) ∧
      ∀ w' ≤ w, ∀ t' ≤ t, IsSide w' → IsSide t' → ∃ side' ≤ side, scale w' h preserveAspect t' = (side',t')) ∧
    (∃ side, scale w h t preserveAspect = (t,side) ∧ scale h w preserveAspect t = (side,t)) ∧
    (Even w → Even h → scale w h preserveAspect h = (w,h) ∧ scale w h w preserveAspect = (w,h)) := by
  refine ⟨?_,⟨_,scale_to_width w h target,scale_to_height h w target⟩,?_⟩
  · intro fits
    have within : t * w ≤ 2 ^ 31 * h := natCast_le_of_quotient height.1 (by exact_mod_cast fits)
    refine ⟨max 2 (nearestEven (t * w) h),?_,?_,?_⟩
    · rw [scale_to_height w h target,derivedSide_eq target height width within]
    · have side := isEvenSide_nearestEven (t * w) height.1
      rwa [Nat.cast_mul] at side
    · intro w' narrower t' lower width' target'
      have less : t' * w' ≤ t * w := Nat.mul_le_mul lower narrower
      refine ⟨max 2 (nearestEven (t' * w') h),max_le_max_left 2 (nearestEven_mono less),?_⟩
      rw [scale_to_height w' h target',derivedSide_eq target' height width' (Nat.le_trans less within)]
  · intro evenWidth evenHeight
    constructor
    · rw [scale_to_height w h height,derivedSide_own height width evenWidth]
    · rw [scale_to_width w h width,derivedSide_own width height evenHeight]

/-- At half of its height, a picture of 1366 by 768 would be 683 wide, half-way between two even numbers. -/
theorem halved_screen_keeps_aspect : IsSide 1366 ∧ IsSide 768 ∧ IsSide 384 ∧
    scale 1366 768 preserveAspect 384 = (684,384) ∧ IsEvenSide 684 683 ∧ scale 768 1366 384 preserveAspect = (384,684) ∧
    (∃ side ≤ 684, scale 1280 768 preserveAspect 360 = (side,360)) ∧ scale 1366 768 preserveAspect 768 = (1366,768) := by
  have width : IsSide 1366 := by decide
  have height : IsSide 768 := by decide
  have target : IsSide 384 := by decide
  have known : scale 1366 768 preserveAspect 384 = (684,384) := by decide
  obtain ⟨toHeight,_,own⟩ := scaling_keeps_aspect width height target
  obtain ⟨side,size,near,less⟩ := toHeight (by norm_num)
  obtain rfl : side = 684 := congrArg Prod.fst (size.symm.trans known)
  obtain ⟨⟨side,turned,same⟩,_⟩ := (scaling_keeps_aspect height width target).2
  obtain rfl : side = 684 := congrArg Prod.fst (same.symm.trans known)
  norm_num at near
  exact ⟨width,height,target,known,near,turned,less 1280 (by decide) 360 (by decide) (by decide) (by decide),
    (own (by decide) (by decide)).1⟩

end Encoding
end Playout
