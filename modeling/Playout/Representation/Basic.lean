import Playout.Representation.Id

/-!
# Representations

One deliverable encoding of a stream (`Representation`), and a stream with one
of its encodings and the ticks where its segments start (`Rendering`).
-/
namespace Playout

/-- How the segments of a representation are made. -/
inductive Delivery where
  | copy
  | encode (settings : Encoding.Settings)
  deriving DecidableEq, Repr, Inhabited

/-- One deliverable encoding of a stream. -/
structure Representation where
  id : RepresentationId
  /-- Bits per second. -/
  bitrate : Nat
  mimeType : String
  codec : String
  /-- Pixels across, zero unless video. -/
  width : Nat
  /-- Pixels down, zero unless video. -/
  height : Nat
  delivery : Delivery
  deriving DecidableEq, Repr, Inhabited

def StreamKind.mimeType : StreamKind → String
  | video => "video/mp4"
  | audio => "audio/mp4"
  | subtitle => "text/vtt"

namespace Representation

def copied (s : Stream) : Representation :=
  ⟨.direct,s.bitrate,s.kind.mimeType,s.codec,s.width,s.height,.copy⟩

def encoded (s : Stream) (id : RepresentationId) (settings : Encoding.Settings) : Representation :=
  match s.kind with
  | .video =>
    let (w,h) := settings.outputSize s.width s.height
    ⟨id,settings.videoBitrate,s.kind.mimeType,settings.codec,w,h,.encode settings⟩
  | .audio | .subtitle =>
    ⟨id,settings.audioBitrate,s.kind.mimeType,settings.codec,0,0,.encode settings⟩

def isCopy (r : Representation) : Bool :=
  match r.delivery with
  | .copy => true
  | .encode _ => false

def settings? (r : Representation) : Option Encoding.Settings :=
  match r.delivery with
  | .copy => none
  | .encode settings => some settings

end Representation

/-- A stream, one of its representations, and the ticks where its segments start. -/
structure Rendering where
  stream : Stream
  representation : Representation
  starts : List Int

namespace Rendering

def kind (r : Rendering) : StreamKind := r.stream.kind

/-- How many segments there are. As all numbers of segments it has 32 bits, which no list in memory comes to. -/
def segmentCount (r : Rendering) : Nat := r.starts.length

def segmentStart? (r : Rendering) (index : Nat) : Option Int := r.starts[index]?

/-- The tick after a segment: where the next one starts, or the end of the stream. -/
def segmentEnd? (r : Rendering) (index : Nat) : Option Int :=
  if index < r.starts.length then some (r.starts[index + 1]?.getD r.stream.durationTicks) else none

def startOf? {τ : Type} (scale : TimeScale τ) (r : Rendering) (index : Nat) : Option τ :=
  (r.segmentStart? index).map (scale.time r.stream)

/-- The first tick of a segment in seconds. -/
def startSeconds? (r : Rendering) (index : Nat) : Option Float := r.startOf? .seconds index

/-- The segment that holds a tick; earlier ticks are held by the first and later ones by the last. -/
def segmentAt (r : Rendering) (tick : Int) : Nat :=
  (r.starts.takeWhile (· ≤ tick)).length - 1

def differences : List Int → List Int
  | a :: b :: rest => (b - a) :: differences (b :: rest)
  | _ => []

/-- Where segments start, and the end of the last one. -/
def bounds (r : Rendering) : List Int := r.starts ++ [max r.stream.durationTicks (r.starts.getLast?.getD 0)]

/-- The lengths of the segments in ticks. -/
def segmentTicks (r : Rendering) : List Int := (differences r.bounds).map wrapSigned64

/-- Whether every length is the difference of two bounds; if not, a build that checks for it stops. -/
def LengthsFit (r : Rendering) : Prop := ∀ length ∈ differences r.bounds, IsSigned64 length

instance (r : Rendering) : Decidable r.LengthsFit := List.decidableBAll _ _

/-- The lengths of the segments in seconds. -/
def segmentSeconds (r : Rendering) : List Float := r.segmentTicks.map r.stream.seconds

/-- The length of the longest segment in seconds. -/
def longestSeconds (r : Rendering) : Float := Binary64.greatestOf r.segmentSeconds

/-- The directory of a representation, seen from the manifests. -/
def directory (r : Rendering) : String :=
  toString r.stream.index ++ "/" ++ r.representation.id.pathSegment

end Rendering
end Playout
