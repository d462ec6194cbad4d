import Playout.Binary64.Value
import Playout.Stream.Ratio

/-!
# Segment plans

Where a stream is cut. A stream that is delivered as it is can be cut at
keyframes alone, so the intervals between keyframes are merged (`mergeIntervals`);
everything else is cut on a constant grid (`grid`).
-/
namespace Playout.Segment

/-- A range of ticks that contains its start and not its end. -/
structure Interval where
  first : Int
  last : Int
  deriving DecidableEq, Repr, Inhabited

/-- The number of ticks. -/
def Interval.length (i : Interval) : Int := i.last - i.first

/-- A numbered interval of a plan. Numbers have 32 bits; a plan with more segments than that does not fit into
    memory, so they are not cut off here. -/
structure Planned where
  number : Nat
  interval : Interval
  deriving DecidableEq, Repr, Inhabited

/-- Whether a segment may follow another one: it touches it and has a greater number. -/
def follows? (a b : Planned) : Result Unit :=
  if a.interval.last ≠ b.interval.first then
    .error (.validation ("segment " ++ toString a.number ++ " ends at " ++ toString a.interval.last ++
      " but segment " ++ toString b.number ++ " starts at " ++ toString b.interval.first))
  else if b.number ≤ a.number then
    .error (.validation ("segment ids not increasing: " ++ toString a.number ++ " then " ++ toString b.number))
  else .ok ()

/-- Accepts segments each of which may follow the one before. -/
def contiguous : List Planned → Result (List Planned)
  | a :: b :: rest => do
    follows? a b
    let tail ← contiguous (b :: rest)
    .ok (a :: tail)
  | short => .ok short

/-- Intervals numbered from zero. -/
def number (intervals : List Interval) : List Planned :=
  intervals.zipIdx.map fun (interval,n) => ⟨n,interval⟩

/-- The first ticks of segments. -/
def starts (plan : List Planned) : List Int := plan.map (·.interval.first)

def dropRepeats : List Int → List Int
  | a :: b :: rest => if a = b then dropRepeats (b :: rest) else a :: dropRepeats (b :: rest)
  | short => short

/-- The intervals between neighbouring bounds that are not empty. -/
def between : List Int → List Interval
  | a :: b :: rest => if a < b then ⟨a,b⟩ :: between (b :: rest) else between (b :: rest)
  | _ => []

/-- The intervals between the keyframes of a stream of some length. The first starts at zero, the last ends with the
    stream, and keyframes outside it do not count. -/
def keyframeIntervals (keyframes : List Int) (duration : Int) : List Interval :=
  between (dropRepeats (0 :: keyframes.filter fun k => 0 < k && k < duration) ++ [max duration 1])

/-- The first grid point after `last`, where the next one is at `cut`. -/
def nextCut (spacing cut last : Int) : Int :=
  if last < cut then cut else cut + ((last - cut) / spacing + 1) * spacing

/-- Closes the segment that is open since `start` at the end of the first interval that reaches the grid point `cut`,
    and at the end of the last interval. -/
def mergeFrom (spacing start cut : Int) : List Interval → List Interval
  | [] => []
  | [i] => [⟨start,i.last⟩]
  | i :: rest =>
    if cut ≤ i.last then ⟨start,i.last⟩ :: mergeFrom spacing i.last (nextCut spacing cut i.last) rest
    else mergeFrom spacing start cut rest

/-- Intervals merged into segments of about `spacing` ticks: cuts are made where an interval ends at or after the next
    point of a grid that begins with the first interval. -/
def mergeIntervals (intervals : List Interval) (spacing : Int) : List Planned :=
  match intervals with
  | [] => []
  | first :: _ =>
    let spacing := max spacing 1
    number (mergeFrom spacing first.first (first.first + spacing) intervals)

def cells (duration spacing : Int) : Nat := ((duration + spacing - 1) / spacing).toNat

/-- Segments of `spacing` ticks each that cover a length, the last one shorter if need be. -/
def grid (duration spacing : Int) : List Planned :=
  let spacing := max spacing 1
  let duration := max duration 1
  number ((List.range (cells duration spacing)).map fun (k : Nat) =>
    ⟨k * spacing,min ((k + 1) * spacing) duration⟩)

/-- A number of seconds as ticks, at least one. -/
def spacingTicks (seconds : Float) (unit : Ratio) : Int :=
  if unit.num = 0 then 1
  else
    max 1 (Binary64.toRange .nearest minSigned64 maxSigned64
      (seconds * Binary64.ofInt unit.den / Binary64.ofInt unit.num))

end Playout.Segment
