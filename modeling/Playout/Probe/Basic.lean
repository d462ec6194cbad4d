import Playout.Codec

/-!
# Inspection results

What an inspection tool reports about a file, and the streams that follow from
it: missing facts are taken from the container, estimated from the size of the
file, or assumed.
-/
namespace Playout.Probe

/-- What is reported about a container. -/
structure Format where
  name : String
  duration : Option Float
  size : Option Nat
  /-- Bits per second. -/
  bitrate : Option Nat
  deriving Inhabited

/-- What is reported about one stream. -/
structure Track where
  index : Nat
  kind : String
  codecName : Option String
  profile : Option String
  level : Option Int
  width : Option Nat
  height : Option Nat
  averageFrameRate : Option String
  baseFrameRate : Option String
  timeBase : Option String
  durationTicks : Option Signed64
  duration : Option Float
  bitrate : Option Nat
  channels : Option Nat
  language : Option String
  title : Option String
  isDefault : Bool
  isCover : Bool
  deriving Inhabited

/-- What is reported about a file. -/
structure Container where
  format : Format
  tracks : List Track
  deriving Inhabited

/-- The bitrate of video that neither reports one nor comes with a size and a duration. -/
def fallbackVideoBitrate : Nat := 10000000

def fallbackAudioBitrate : Nat := 128000

def fallbackTimeBase : Ratio := ⟨1,1000⟩

/-- The kind of a track that can be played; cover art cannot. -/
def Track.playable? (t : Track) : Option StreamKind :=
  if t.kind = "video" then if t.isCover then none else some .video
  else if t.kind = "audio" then some .audio
  else if t.kind = "subtitle" then some .subtitle
  else none

/-- A reported ratio, if it is not zero. -/
def ratio? (s : String) : Option Ratio := (Ratio.ofText? s.toList).filter fun r => !r.isZero

def Track.ticks (t : Track) : Ratio := (t.timeBase.bind ratio?).getD fallbackTimeBase

/-- The frame rate of a track: the average if there is one, else the base. -/
def Track.frameRate (t : Track) : Ratio :=
  match t.averageFrameRate.bind ratio? with
  | some r => r
  | none => (t.baseFrameRate.bind ratio?).getD Ratio.zero

/-- The length of a container in seconds, zero if unknown. -/
def Format.seconds (f : Format) : Float := f.duration.getD 0.0

/-- The length of a track in ticks: as reported unless zero, else that of the container. -/
def Track.lengthTicks (f : Format) (t : Track) : Signed64 :=
  match t.durationTicks.filter (·.1 ≠ 0) with
  | some ticks => ticks
  | none =>
    let unit := t.ticks
    ⟨Binary64.toRange .truncate minSigned64 maxSigned64 (f.seconds * Binary64.ofInt unit.den / Binary64.ofInt unit.num),
      Binary64.toRange_bounds (by decide) (by decide) _ _⟩

/-- The bitrate of a track: as reported unless zero; else for video the average of the whole file, and otherwise a fixed
    assumption. -/
def Track.rate (f : Format) (kind : StreamKind) (t : Track) : Nat :=
  match t.bitrate.filter (0 < ·) with
  | some rate => rate
  | none =>
    match kind with
    | .video =>
      match f.size, f.duration with
      | some size, some duration =>
        if duration > 0.0 then
          (Binary64.toRange .truncate 0 max64 (Binary64.ofInt size / duration * 8.0)).toNat
        else fallbackVideoBitrate
      | _, _ => fallbackVideoBitrate
    | .audio => fallbackAudioBitrate
    | .subtitle => 0

def Track.stream? (f : Format) (t : Track) : Option Stream := do
  let kind ← t.playable?
  let codecName := t.codecName.getD ""
  some {
    index := t.index
    duration := (t.duration.filter (· > 0.0)).getD f.seconds
    timeBase := t.ticks
    durationTicks := (t.lengthTicks f).1
    fits := (t.lengthTicks f).2
    codec := Codec.text kind codecName t.profile t.level
    codecName := codecName
    bitrate := t.rate f kind
    frameRate := t.frameRate
    width := t.width.getD 0
    height := t.height.getD 0
    kind := kind
    language := t.language
    title := t.title
    isDefault := t.isDefault
  }

/-- The streams of a file that can be played, in the order of the container. -/
def Container.streams (c : Container) : List Stream := c.tracks.filterMap (Track.stream? c.format)

end Playout.Probe
