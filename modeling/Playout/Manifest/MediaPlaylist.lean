import Playout.Binary64.Fixed
import Playout.Representation.Basic

/-!
# HLS media playlists

The list of the segments of one rendering. Every segment is known from the
start, so a playlist is always complete and begins with segment zero.
-/
namespace Playout.Manifest

structure SegmentEntry where
  duration : Float
  uri : String

structure MediaPlaylist where
  /-- The greatest length of a segment in whole seconds. -/
  targetDuration : Nat
  initUri : Option String
  segments : List SegmentEntry

namespace MediaPlaylist

def emptyTarget : Nat := 6

def initName : String := "init.mp4"

def extension : StreamKind → String
  | .subtitle => "vtt"
  | .video | .audio => "m4s"

/-- The target duration of a rendering: its longest segment in whole seconds, at least one. -/
def target (r : Rendering) : Nat :=
  (max 1 (Binary64.toRange .ceiling 0 max32 r.longestSeconds)).toNat

def ofRendering (r : Rendering) : MediaPlaylist where
  targetDuration := target r
  initUri := if r.kind = .subtitle then none else some initName
  segments := r.segmentSeconds.zipIdx.map fun (duration,i) =>
    ⟨duration,toString i ++ "." ++ extension r.kind⟩

def segmentLines (s : SegmentEntry) : List String :=
  ["#EXTINF:" ++ String.ofList (Binary64.fixed 6 s.duration) ++ ",",s.uri]

def lines (p : MediaPlaylist) : List String :=
  ["#EXTM3U","#EXT-X-VERSION:7","#EXT-X-TARGETDURATION:" ++ toString p.targetDuration,
    "#EXT-X-MEDIA-SEQUENCE:0","#EXT-X-PLAYLIST-TYPE:VOD","#EXT-X-INDEPENDENT-SEGMENTS"] ++
  (match p.initUri with
    | some uri => ["#EXT-X-MAP:URI=\"" ++ uri ++ "\""]
    | none => []) ++
  p.segments.flatMap segmentLines ++ ["#EXT-X-ENDLIST"]

def render (p : MediaPlaylist) : String := String.join (p.lines.map (· ++ "\n"))

end MediaPlaylist
end Playout.Manifest
