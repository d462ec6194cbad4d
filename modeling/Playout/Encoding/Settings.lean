import Playout.Encoding.Level
import Playout.Encoding.Scale
import Playout.Error
import Playout.Json.Reader
import Playout.Json.Record
import Playout.Stream.Json
import Playout.Text.Base64Url

/-!
# Encoding settings

What an encoder is asked to produce. The text of settings stands in URLs: it is
the unpadded base64 of a JSON record, and settings that no encoder could follow
are refused when it is read.
-/
namespace Playout.Encoding

/-- Target settings of one encoder run. -/
structure Settings where
  /-- Pixels across, `preserveAspect` to follow the height, zero for audio. -/
  width : Int
  /-- Pixels down, `preserveAspect` to follow the width, zero for audio. -/
  height : Int
  /-- Bits per second, zero for audio alone. -/
  videoBitrate : Nat
  /-- Bits per second, zero for video alone. -/
  audioBitrate : Nat
  codec : String
  deriving DecidableEq, Repr, Inhabited

namespace Settings

/-- Settings for video; the codec string follows from the scaled size. -/
def video (width height : Int) (bitrate sourceWidth sourceHeight : Nat) : Settings :=
  let (w,h) := scale sourceWidth sourceHeight width height
  ⟨width,height,bitrate,0,h264Codec w h bitrate⟩

def audio (bitrate : Nat) : Settings := ⟨0,0,0,bitrate,"mp4a.40.2"⟩

def kind (s : Settings) : StreamKind := if 0 < s.videoBitrate then .video else .audio

/-- The size of the pictures that settings produce from a source. -/
def outputSize (sourceWidth sourceHeight : Nat) (s : Settings) : Nat × Nat :=
  scale sourceWidth sourceHeight s.width s.height

def toJson (s : Settings) : Json :=
  .record [("width",.int s.width),("height",.int s.height),("video_bitrate",.nat s.videoBitrate),
    ("audio_bitrate",.nat s.audioBitrate),("codec",.text s.codec)]

def ofJson? (j : Json) : Option Settings := do
  match ← j.fields? [⟨"width",.required⟩,⟨"height",.required⟩,⟨"video_bitrate",.required⟩,
      ⟨"audio_bitrate",.required⟩,⟨"codec",.required⟩] with
  | [width,height,videoBitrate,audioBitrate,codec] =>
    some {
      width := ← Json.must (Json.int? minSigned32 maxSigned32) width
      height := ← Json.must (Json.int? minSigned32 maxSigned32) height
      videoBitrate := ← Json.must (Json.nat? max64) videoBitrate
      audioBitrate := ← Json.must (Json.nat? max64) audioBitrate
      codec := ← Json.must Stream.string? codec
    }
  | _ => none

def isSide (d : Int) : Bool := 0 ≤ d || d == preserveAspect

/-- Refuses settings without a bitrate or with impossible sides. -/
def validate (s : Settings) : Result Settings :=
  if !isSide s.width || !isSide s.height then
    .error (.validation ("invalid dimensions " ++ toString s.width ++ "x" ++ toString s.height))
  else if s.videoBitrate = 0 ∧ s.audioBitrate = 0 then
    .error (.validation "encoder params need a bitrate")
  else .ok s

def encode (s : Settings) : String :=
  String.ofList (Text.Base64Url.encode (Text.Utf8.encode s.toJson.render))

/-- The settings that a text denotes, whether or not an encoder could follow them. -/
def decodeRaw? (s : List Char) : Option Settings := do
  let bytes ← Text.Base64Url.decode? s
  let j ← Json.read? bytes
  ofJson? j

def decode (s : String) : Result Settings :=
  match decodeRaw? s.toList with
  | some settings => settings.validate
  | none => .error (.unknownRepresentation ("custom:" ++ s ++ ": no encoder settings"))

end Settings
end Playout.Encoding
