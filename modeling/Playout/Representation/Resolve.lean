import Playout.Representation.Basic
import Playout.Segment.Plan

/-!
# Resolving representations

From a stream and an id to a representation with its segment plan, and the ids
that a stream is offered in.
-/
namespace Playout

/-- The segment length that is aimed at unless configured, in seconds. -/
def defaultSegmentSeconds : Float := 5.0

/-- Whether the plan of a representation depends on the keyframes of the stream. -/
def needsKeyframes (s : Stream) (id : RepresentationId) : Bool := id == .direct && s.kind == .video

def copyPlan (spacing : Int) (s : Stream) (keyframes : List Int) : List Segment.Planned :=
  match s.kind with
  | .video => Segment.mergeIntervals (Segment.keyframeIntervals keyframes s.durationTicks) spacing
  | .audio | .subtitle => Segment.grid s.durationTicks spacing

/-- The settings that a preset stands for, if it applies to the stream. -/
def presetSettings (s : Stream) (name : String) : Result Encoding.Settings :=
  let found := match s.kind with
    | .video => (Encoding.videoRung? name).map fun r => r.settings s
    | .audio => (Encoding.audioRung? name).map fun r => r.settings
    | .subtitle => none
  match found with
  | some settings => .ok settings
  | none =>
    if Encoding.isRung name then .error (.unsupportedKind name s.kind.name)
    else .error (.unknownRepresentation name)

/-- A stream that is encoded afresh. Its keyframes are put on the grid, so it is cut there. -/
def encodedRendering (segmentSeconds : Float) (s : Stream) (id : RepresentationId)
    (settings : Encoding.Settings) : Rendering :=
  ⟨s,Representation.encoded s id settings,
    Segment.starts (Segment.grid s.durationTicks (Segment.spacingTicks segmentSeconds s.timeBase))⟩

def copiedRendering (segmentSeconds : Float) (s : Stream) (keyframes : List Int) : Rendering :=
  ⟨s,Representation.copied s,
    Segment.starts (copyPlan (Segment.spacingTicks segmentSeconds s.timeBase) s keyframes)⟩

/-- The representation of a stream that an id names, with segments of about `segmentSeconds`. -/
def resolve (segmentSeconds : Float) (s : Stream) (id : RepresentationId) (keyframes : List Int) : Result Rendering :=
  match id with
  | .direct => .ok (copiedRendering segmentSeconds s keyframes)
  | .preset name => (presetSettings s name).map (encodedRendering segmentSeconds s id)
  | .custom settings =>
    if s.kind = settings.kind then .ok (encodedRendering segmentSeconds s id settings)
    else .error (.unsupportedKind id.text s.kind.name)

/-- The ids that a stream is offered in: as it is, then the presets that do not enlarge it. -/
def candidateIds (s : Stream) : List RepresentationId :=
  .direct ::
    match s.kind with
    | .video => (Encoding.videoLadder.filter (·.fits s)).map fun r => .preset r.name
    | .audio => Encoding.audioLadder.map fun r => .preset r.name
    | .subtitle => []

end Playout
