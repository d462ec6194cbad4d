import Playout.Binary64.Fixed
import Playout.Representation.Basic

/-!
# DASH manifests

A static manifest with one adaptation set for each stream. The segments of a
rendering are listed as runs of equal length, and their URLs are relative to the
manifest.
-/
namespace Playout.Manifest

/-- A run of segments of equal length in ticks: where it starts, and how often the first one is repeated. -/
structure Run where
  start : Int
  length : Int
  repeats : Nat
  deriving DecidableEq, Repr, Inhabited

def runs : List (Int × Int) → List Run
  | [] => []
  | (start,length) :: rest =>
    match runs rest with
    | run :: later =>
      if run.length = length then ⟨start,length,run.repeats + 1⟩ :: later
      else ⟨start,length,0⟩ :: run :: later
    | [] => [⟨start,length,0⟩]

def timelineRuns (r : Rendering) : List Run := runs (r.starts.zip r.segmentTicks)

def escapeChar (c : Char) : List Char :=
  if c = '&' then "&amp;".toList
  else if c = '<' then "&lt;".toList
  else if c = '>' then "&gt;".toList
  else if c = '"' then "&quot;".toList
  else if c = '\'' then "&apos;".toList
  else [c]

def escape (s : String) : String := String.ofList (s.toList.flatMap escapeChar)

def xmlAttribute (name value : String) : String := " " ++ name ++ "=\"" ++ value ++ "\""

/-- A number of seconds as a duration, not negative. -/
def isoDuration (seconds : Float) : String :=
  "PT" ++ String.ofList (Binary64.fixed 3 (Binary64.greater seconds 0.0)) ++ "S"

/-- What is multiplied with ticks for times in units of the timescale. -/
def timeFactor (s : Stream) : Int := max s.timeBase.num 1

/-- The line of a run; times are in ticks times `scale`. -/
def Run.line (scale : Int) (run : Run) : String :=
  "            <S" ++ xmlAttribute "t" (toString (wrapSigned64 (run.start * scale))) ++
    xmlAttribute "d" (toString (wrapSigned64 (run.length * scale))) ++
    (if run.repeats = 0 then "" else xmlAttribute "r" (toString run.repeats)) ++ "/>"

/-- Whether the times of a run are products; if not, a build that checks for it stops. -/
def Run.TimesFit (scale : Int) (run : Run) : Prop := IsSigned64 (run.start * scale) ∧ IsSigned64 (run.length * scale)

instance (scale : Int) (run : Run) : Decidable (run.TimesFit scale) :=
  inferInstanceAs (Decidable (IsSigned64 (run.start * scale) ∧ IsSigned64 (run.length * scale)))

/-- Whether the lengths and the times of a rendering can be written as they are. -/
def TimesFit (r : Rendering) : Prop := r.LengthsFit ∧ ∀ run ∈ timelineRuns r, run.TimesFit (timeFactor r.stream)

instance (r : Rendering) : Decidable (TimesFit r) :=
  inferInstanceAs (Decidable (r.LengthsFit ∧ ∀ run ∈ timelineRuns r, run.TimesFit (timeFactor r.stream)))

def representationLines (r : Rendering) : List String :=
  let rep := r.representation
  let rate := r.stream.frameRate
  let unit := r.stream.timeBase
  let base := escape r.directory
  ["      <Representation" ++ xmlAttribute "id" (escape (toString r.stream.index ++ "-" ++ rep.id.pathSegment)) ++
      xmlAttribute "bandwidth" (toString rep.bitrate) ++ xmlAttribute "codecs" (escape rep.codec) ++
      (if 0 < rep.width ∧ 0 < rep.height then
        xmlAttribute "width" (toString rep.width) ++ xmlAttribute "height" (toString rep.height)
      else "") ++
      (if rate.isZero then "" else xmlAttribute "frameRate" rate.text) ++ ">",
    "        <SegmentTemplate" ++ xmlAttribute "timescale" (toString (max unit.den 1)) ++
      xmlAttribute "initialization" (base ++ "/init.mp4") ++
      xmlAttribute "media" (base ++ "/$Number$.m4s") ++ xmlAttribute "startNumber" "0" ++ ">",
    "          <SegmentTimeline>"] ++
  (timelineRuns r).map (Run.line (timeFactor r.stream)) ++
  ["          </SegmentTimeline>","        </SegmentTemplate>","      </Representation>"]

/-- The lines of the adaptation set of one stream, given by its first rendering and the others. -/
def adaptationLines (id : Nat) (first : Rendering) (others : List Rendering) : List String :=
  ["    <AdaptationSet" ++ xmlAttribute "id" (toString id) ++ xmlAttribute "contentType" first.kind.name ++
      xmlAttribute "mimeType" first.representation.mimeType ++
      xmlAttribute "segmentAlignment" "true" ++
      (match first.stream.language with
        | some language => xmlAttribute "lang" (escape language)
        | none => "") ++ ">"] ++
  (first :: others).flatMap representationLines ++ ["    </AdaptationSet>"]

/-- Adds a rendering to the group of its stream, or as a new group at the end. -/
def addToGroup (r : Rendering) : List (Rendering × List Rendering) → List (Rendering × List Rendering)
  | [] => [(r,[])]
  | (first,others) :: rest =>
    if first.stream.index = r.stream.index then (first,others ++ [r]) :: rest
    else (first,others) :: addToGroup r rest

/-- Renderings grouped by their stream, in order of first appearance. -/
def groupByStream (rs : List Rendering) : List (Rendering × List Rendering) :=
  rs.foldl (fun groups r => addToGroup r groups) []

/-- The lines of the manifest of some video and audio renderings. -/
def mpdLines (video audio : List Rendering) : List String :=
  let all := video ++ audio
  let groups := groupByStream video ++ groupByStream audio
  ["<?xml version=\"1.0\" encoding=\"UTF-8\"?>",
    "<MPD" ++ xmlAttribute "xmlns" "urn:mpeg:dash:schema:mpd:2011" ++
      xmlAttribute "profiles" "urn:mpeg:dash:profile:isoff-live:2011" ++ xmlAttribute "type" "static" ++
      xmlAttribute "mediaPresentationDuration"
        (isoDuration (Binary64.greatestOf (all.map (·.stream.duration)))) ++
      xmlAttribute "minBufferTime" "PT2S" ++
      xmlAttribute "maxSegmentDuration"
        (isoDuration (Binary64.greatestOf (all.map Rendering.longestSeconds))) ++ ">",
    "  <Period" ++ xmlAttribute "id" "0" ++ xmlAttribute "start" "PT0S" ++ ">"] ++
  (groups.zipIdx.flatMap fun ((first,others),id) => adaptationLines id first others) ++
  ["  </Period>","</MPD>"]

def mpd (video audio : List Rendering) : String :=
  String.join ((mpdLines video audio).map (· ++ "\n"))

end Playout.Manifest
