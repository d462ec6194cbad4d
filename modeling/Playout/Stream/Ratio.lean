import Playout.Binary64.Reader
import Playout.Error
import Playout.Text.Blank

/-!
# Ratios

A ratio of two whole numbers, for the tick unit of a stream and for frame rates.
-/
namespace Playout

/-- A ratio of two whole numbers; the denominator may be zero. -/
structure Ratio where
  num : Int
  den : Int
  deriving DecidableEq, Repr, Inhabited

namespace Ratio

def zero : Ratio := ⟨0,1⟩

/-- The value of a ratio, zero if the denominator is. -/
def toFloat (r : Ratio) : Float :=
  if r.den = 0 then 0.0 else Binary64.ofInt r.num / Binary64.ofInt r.den

/-- Whether either side is zero. -/
def isZero (r : Ratio) : Bool := r.num == 0 || r.den == 0

def text (r : Ratio) : String := toString r.num ++ "/" ++ toString r.den

def side? (s : List Char) : Option Int :=
  Text.integer? minSigned64 maxSigned64 (Text.trim s)

/-- The ratio of a text `num/den`, or of one whole number. -/
def ofText? (s : List Char) : Option Ratio :=
  match Text.splitFirst? '/' s with
  | some (num,den) => do
    let num ← side? num
    let den ← side? den
    some ⟨num,den⟩
  | none => (side? s).map fun num => ⟨num,1⟩

def parse (s : String) : Result Ratio :=
  match ofText? s.toList with
  | some r => .ok r
  | none => .error (.validation ("invalid rational: " ++ s))

end Ratio
end Playout
