import Playout.Binary64.Value
import Playout.Text.Numeral

/-!
# Scaling

The size of a picture that is scaled to a given height or width and keeps its
aspect. The derived side is rounded to the nearest even number, as chroma
subsampling requires, and is at least two.

The arithmetic is that of floating-point numbers: a product and then a quotient,
each rounded to fifty-three bits (`nearest53`). Both are positive and far from
the ends of the format's range, so integers and powers of two carry it exactly.
-/
namespace Playout.Encoding

def preserveAspect : Int := -2

def bitLength (n : Nat) : Nat := if n = 0 then 0 else Nat.log2 n + 1

/-- A positive quotient rounded to fifty-three bits, a half to the even neighbour: a number and the power of two that it
    is multiplied with. -/
def nearest53 (num den : Nat) : Nat × Int :=
  -- the shift that leaves fifty-three bits, save one too few or too many
  let shift : Int := 53 - ((bitLength num : Int) - bitLength den)
  let rounded := fun (s : Int) =>
    if 0 ≤ s then (num * Nat.pow 2 s.toNat) / den else num / (den * Nat.pow 2 (-s).toNat)
  let shift := if Nat.pow 2 53 ≤ rounded shift then shift - 1 else shift
  let mantissa :=
    if 0 ≤ shift then Binary64.roundHalfEven (num * Nat.pow 2 shift.toNat) den
    else Binary64.roundHalfEven num (den * Nat.pow 2 (-shift).toNat)
  (mantissa,-shift)

/-- A number times a power of two, halved and rounded to the nearest whole number, a half up. -/
def halved (m : Nat) (e : Int) : Nat :=
  let e := e - 1
  if 0 ≤ e then m * Nat.pow 2 e.toNat else Binary64.roundHalfUp m (Nat.pow 2 (-e).toNat)

/-- The nearest even number to `num / den`, at least two and at most the greatest of 32 bits. -/
def evenQuotient (num den : Nat) : Nat :=
  if num = 0 then 2
  else
    let (p,pe) := nearest53 num 1
    let product := if 0 ≤ pe then p * Nat.pow 2 pe.toNat else p / Nat.pow 2 (-pe).toNat
    let (q,qe) := nearest53 product den
    max 2 (min max32 (2 * halved q qe))

/-- The side that `target` becomes the other side of, where the source has `source` along the target and `across` along
    the derived side. A source without extent passes the target on. -/
def derivedSide (target source across : Nat) : Nat :=
  if source = 0 then evenQuotient target 1 else evenQuotient (target * across) source

/-- The size of a picture of a given source size scaled to a width and a height, either of which may follow from the
    other. -/
def scale (sourceWidth sourceHeight : Nat) (width height : Int) : Nat × Nat :=
  if width = preserveAspect ∧ height = preserveAspect then (sourceWidth,sourceHeight)
  else if width = preserveAspect ∧ 0 < height then
    (derivedSide height.toNat sourceHeight sourceWidth,height.toNat)
  else if height = preserveAspect ∧ 0 < width then
    (width.toNat,derivedSide width.toNat sourceWidth sourceHeight)
  else (width.toNat,height.toNat)

end Playout.Encoding
