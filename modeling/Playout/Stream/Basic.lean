import Playout.Binary64.Value
import Playout.Stream.Ratio
import Playout.Word

/-!
# Streams

What is known about one elementary stream of a media file, and the conversion
between its ticks and seconds.
-/
namespace Playout

inductive StreamKind where
  | video
  | audio
  | subtitle
  deriving DecidableEq, Repr, Inhabited

def StreamKind.name : StreamKind → String
  | video => "video"
  | audio => "audio"
  | subtitle => "subtitle"

def StreamKind.ofName? (name : List Char) : Option StreamKind :=
  if name = "video".toList then some video
  else if name = "audio".toList then some audio
  else if name = "subtitle".toList then some subtitle
  else none

/-- One elementary stream. -/
structure Stream where
  index : Nat
  /-- The length in seconds. -/
  duration : Float
  /-- The length of a tick in seconds. -/
  timeBase : Ratio
  /-- The length in ticks. -/
  durationTicks : Int
  fits : IsSigned64 durationTicks := by decide
  codec : String
  codecName : String
  /-- Bits per second. -/
  bitrate : Nat
  /-- Frames per second, zero unless video. -/
  frameRate : Ratio
  /-- Pixels across, zero unless video. -/
  width : Nat
  /-- Pixels down, zero unless video. -/
  height : Nat
  kind : StreamKind
  language : Option String
  title : Option String
  isDefault : Bool

namespace Stream

def seconds (s : Stream) (ticks : Int) : Float := Binary64.ofInt ticks * s.timeBase.toFloat

/-- Seconds as ticks, rounded down; no ticks if the tick unit is zero. -/
def ticks (s : Stream) (seconds : Float) : Int :=
  if s.timeBase.num = 0 then 0
  else
    Binary64.toRange .floor minSigned64 maxSigned64
      (seconds * Binary64.ofInt s.timeBase.den / Binary64.ofInt s.timeBase.num)

end Stream

/-- A way to reckon times. -/
structure TimeScale (τ : Type) where
  time : Stream → Int → τ
  zero : τ
  difference : τ → τ → τ
  greater : τ → τ → τ

/-- Times as floating-point numbers of seconds. -/
def TimeScale.seconds : TimeScale Float where
  time := Stream.seconds
  zero := 0.0
  difference := (· - ·)
  greater := Binary64.greater

end Playout
