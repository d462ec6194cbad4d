import Playout.Encoder.SegmentName
import Playout.Error

/-!
# Requested files

The last part of the URL of a rendering: its playlist, its container header, or
one of its segments.
-/
namespace Playout

/-- What a request wants from a run. -/
inductive SegmentRequest where
  | header
  | segment (index : Nat)
  deriving DecidableEq, Repr, Inhabited

def SegmentRequest.text : SegmentRequest → String
  | header => "init"
  | segment index => toString index

inductive RenditionFile where
  | playlist
  | header
  | media (index : Nat)
  | subtitle (index : Nat)
  deriving DecidableEq, Repr, Inhabited

namespace RenditionFile

def numbered? (stem ext : List Char) : Option RenditionFile := do
  let index ← Text.natural? max32 stem
  if ext = "m4s".toList then some (media index)
  else if ext = "vtt".toList then some (subtitle index)
  else none

def ofName? (name : List Char) : Option RenditionFile :=
  if name = "index.m3u8".toList then some playlist
  else if name = "init.mp4".toList then some header
  else (Text.splitLast? '.' name).bind fun (stem,ext) => numbered? stem ext

def parse (name : String) : Result RenditionFile :=
  match ofName? name.toList with
  | some file => .ok file
  | none => .error (.validation ("invalid segment file: " ++ name))

/-- What the file needs from a run, nothing for the playlist. -/
def request? : RenditionFile → Option SegmentRequest
  | playlist => none
  | header => some .header
  | media index | subtitle index => some (.segment index)

def fits (kind : StreamKind) : RenditionFile → Bool
  | playlist => true
  | header | media _ => kind != .subtitle
  | subtitle _ => kind == .subtitle

def sortText : RenditionFile → String
  | playlist => "Playlist"
  | header => "Init"
  | media index => "Media(" ++ toString index ++ ")"
  | subtitle index => "Subtitle(" ++ toString index ++ ")"

end RenditionFile

/-- Whether a run that has produced the segment `produced` is far enough ahead of a player that was served `consumed` to
    be paused. A run that starts at `start` has nothing to be consumed before. -/
def shouldThrottle (produced consumed : Option Nat) (start threshold : Nat) : Bool :=
  match produced with
  | none => false
  | some produced => threshold < produced - max start (consumed.getD start)

end Playout
