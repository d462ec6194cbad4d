import Playout.Binary64.Fixed
import Playout.Encoder.SegmentName
import Playout.Identity

/-!
# Encoder jobs

One run of the encoder over a range of segments of a rendering, and the
arguments that make it cut at the segment plan: the range is sought and
bounded by `-ss` and `-t`, and the cuts inside it are listed. Timestamps leave
the encoder shifted back to the time of the source, so cuts are absolute times.
-/
namespace Playout.Encoder

/-- One run of the encoder. -/
structure Job where
  run : RunId
  source : String
  rendering : Rendering
  /-- The first segment. -/
  first : Nat
  last : Nat
  directory : String
  segmentSeconds : Float
  progressUrl : Option String

namespace Job

section
variable {τ : Type} (scale : TimeScale τ) (j : Job)

def start : τ := (j.rendering.startOf? scale j.first).getD scale.zero

/-- The length of the run, unless it goes on to the end of the stream. -/
def duration? : Option τ :=
  if j.rendering.segmentCount ≤ j.last then none
  else
    (j.rendering.startOf? scale j.last).map fun stop =>
      scale.greater (scale.difference stop (j.start scale)) scale.zero

def cutSegments : List Nat := List.range' (j.first + 1) (j.last - (j.first + 1))

def cutTimes : List τ := j.cutSegments.filterMap (j.rendering.startOf? scale)

end

/-- Where in the source the run starts, in seconds. -/
def startSeconds (j : Job) : Float := j.start .seconds

/-- The length of the run in seconds, unless it goes on to the end of the stream. -/
def durationSeconds? (j : Job) : Option Float := j.duration? .seconds

/-- The times of the cuts in seconds. -/
def cuts (j : Job) : List Float := j.cutTimes .seconds

def time (seconds : Float) : String := String.ofList (Binary64.fixed 6 seconds)

def length (seconds : Float) : String := String.ofList (Binary64.fixed 3 seconds)

def codecArguments (j : Job) : List String :=
  match j.rendering.representation.delivery, j.rendering.kind with
  | _, .subtitle => ["-c:s","webvtt"]
  | .copy, .video => ["-c:v","copy"]
  | .copy, .audio => ["-c:a","copy"]
  | .encode s, .video =>
    let rate := toString s.videoBitrate
    ["-c:v","libx264","-preset","veryfast","-profile:v","high","-pix_fmt","yuv420p",
      "-b:v",rate,"-maxrate",rate,"-bufsize",toString (wrap64 (s.videoBitrate * 2)),
      "-vf","scale=" ++ toString s.width ++ ":" ++ toString s.height,
      "-force_key_frames","expr:gte(t,n_forced*" ++ length j.segmentSeconds ++ ")",
      "-sc_threshold","0"]
  | .encode s, .audio => ["-c:a","aac","-b:a",toString s.audioBitrate,"-ac","2"]

/-- The arguments that choose where the stream is cut. A run of one segment is given a length that it does not reach, so
    that it is not cut at all. -/
def cutArguments (j : Job) : List String :=
  let stream := j.rendering.stream
  match j.cuts with
  | [] =>
    ["-segment_time",length (stream.seconds stream.durationTicks + j.segmentSeconds)]
  | cuts => ["-segment_times",",".intercalate (cuts.map time)]

def outputArguments (j : Job) : List String :=
  let pattern := ["-y",segmentPattern j.rendering.kind]
  match j.rendering.kind with
  | .subtitle => ["-segment_format","webvtt"] ++ pattern
  | .video | .audio =>
    ["-segment_format","mp4","-segment_format_options",
      "movflags=+frag_custom+empty_moov+default_base_moof","-segment_header_filename",initName] ++
      pattern

def arguments (j : Job) : List String :=
  let start := j.startSeconds
  let atStart := fun (option : String) => if start > 0.0 then [option,time start] else []
  ["-hide_banner","-nostdin","-loglevel","error"] ++
  (match j.progressUrl with
    | some url => ["-progress",url,"-nostats"]
    | none => []) ++
  atStart "-ss" ++ ["-i",j.source] ++
  (match j.durationSeconds? with
    | some seconds => ["-t",time seconds]
    | none => []) ++
  ["-map","0:" ++ toString j.rendering.stream.index] ++ j.codecArguments ++
  atStart "-output_ts_offset" ++ ["-f","segment"] ++ j.cutArguments ++
  ["-segment_time_delta","0.001","-segment_start_number","0"] ++ j.outputArguments

end Job
end Playout.Encoder
