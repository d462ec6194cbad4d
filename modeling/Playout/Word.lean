/-!
# Words

Numbers of a fixed number of bits: how great they can be, and what the bits keep
of a number that does not fit. Sums, differences and products are kept in this
way; where one does not fit, a build that checks for it stops instead.
-/
namespace Playout

/-- The greatest number of 8 bits. -/
def max8 : Nat := 0xFF
/-- The greatest number of 16 bits. -/
def max16 : Nat := 0xFFFF
/-- The greatest number of 32 bits. -/
def max32 : Nat := 0xFFFFFFFF
/-- The greatest number of 64 bits. -/
def max64 : Nat := 0xFFFFFFFFFFFFFFFF
/-- The least signed number of 32 bits. -/
def minSigned32 : Int := -0x80000000
/-- The greatest signed number of 32 bits. -/
def maxSigned32 : Int := 0x7FFFFFFF
/-- The least signed number of 64 bits. -/
def minSigned64 : Int := -0x8000000000000000
/-- The greatest signed number of 64 bits. -/
def maxSigned64 : Int := 0x7FFFFFFFFFFFFFFF

/-- What 64 bits keep of a number. -/
def wrap64 (n : Nat) : Nat := n % (max64 + 1)

/-- What 64 bits with a sign keep of a number. -/
def wrapSigned64 (i : Int) : Int := i.bmod (max64 + 1)

/-- Whether 64 bits with a sign hold a number. -/
def IsSigned64 (i : Int) : Prop := minSigned64 ≤ i ∧ i ≤ maxSigned64

instance (i : Int) : Decidable (IsSigned64 i) := inferInstanceAs (Decidable (minSigned64 ≤ i ∧ i ≤ maxSigned64))

theorem wrap64_of_le {n : Nat} (small : n ≤ max64) : wrap64 n = n := Nat.mod_eq_of_lt (Nat.lt_succ_of_le small)

theorem wrapSigned64_of_isSigned64 {i : Int} (fits : IsSigned64 i) : wrapSigned64 i = i := by
  obtain ⟨low,high⟩ := fits
  rw [minSigned64] at low
  rw [maxSigned64] at high
  refine Int.bmod_eq_of_le ?_ ?_
  · rw [max64]
    omega
  · rw [max64]
    omega

/-- A signed number of 64 bits. -/
abbrev Signed64 := { i : Int // IsSigned64 i }

def Signed64.ofInt? (i : Int) : Option Signed64 := if fits : IsSigned64 i then some ⟨i,fits⟩ else none

end Playout
