import Playout.Json.Reader
import Playout.Json.Record
import Playout.Probe.Basic
import Playout.Stream.Json

/-!
# Inspection reports

The JSON that the inspection tool prints: containers with their tracks, and
keyframes as frames with timestamps. Durations, sizes and bitrates come as text;
one that is not a number counts as missing.
-/
namespace Playout.Probe
open Playout.Json (must maybe withDefault)
open Playout.Stream (string?)

def naturalText (s : Option String) : Option Nat := s.bind fun s => Text.natural? max64 s.toList

/-- A length in seconds that is written as a text, if it is one. -/
def secondsText (s : Option String) : Option Float := s.bind fun s => Binary64.read? s.toList

def Format.ofJson? (j : Json) : Option Format := do
  match ← j.fields? [⟨"format_name",.defaulted⟩,⟨"duration",.optional⟩,⟨"size",.optional⟩,
      ⟨"bit_rate",.optional⟩] with
  | [name,duration,size,bitrate] =>
    some {
      name := ← withDefault "" string? name
      duration := secondsText (← maybe string? duration)
      size := naturalText (← maybe string? size)
      bitrate := naturalText (← maybe string? bitrate)
    }
  | _ => none

/-- Whether a track is the default one, and whether it is cover art. -/
def disposition? (j : Json) : Option (Bool × Bool) := do
  match ← j.fields? [⟨"default",.defaulted⟩,⟨"attached_pic",.defaulted⟩] with
  | [isDefault,isCover] =>
    let isDefault ← withDefault 0 (Json.nat? max8) isDefault
    let isCover ← withDefault 0 (Json.nat? max8) isCover
    some (isDefault == 1,isCover == 1)
  | _ => none

def tags? (j : Json) : Option (Option String × Option String) := do
  match ← j.fields? [⟨"language",.optional⟩,⟨"title",.optional⟩] with
  | [language,title] => some (← maybe string? language,← maybe string? title)
  | _ => none

def trackFields : List Json.Field :=
  [⟨"index",.required⟩,⟨"codec_type",.defaulted⟩,⟨"codec_name",.optional⟩,
    ⟨"profile",.optional⟩,⟨"level",.optional⟩,⟨"width",.optional⟩,⟨"height",.optional⟩,
    ⟨"avg_frame_rate",.optional⟩,⟨"r_frame_rate",.optional⟩,⟨"time_base",.optional⟩,
    ⟨"duration_ts",.optional⟩,⟨"duration",.optional⟩,⟨"bit_rate",.optional⟩,
    ⟨"channels",.optional⟩,⟨"disposition",.defaulted⟩,⟨"tags",.defaulted⟩]

def Track.ofJson? (j : Json) : Option Track := do
  match ← j.fields? trackFields with
  | [index,kind,codecName,profile,level,width,height,averageFrameRate,baseFrameRate,
      timeBase,durationTicks,duration,bitrate,channels,disposition,tags] =>
    let (isDefault,isCover) ← withDefault (false,false) disposition? disposition
    let (language,title) ← withDefault (none,none) tags? tags
    some {
      index := ← must (Json.nat? max32) index
      kind := ← withDefault "" string? kind
      codecName := ← maybe string? codecName
      profile := ← maybe string? profile
      level := ← maybe (Json.int? minSigned32 maxSigned32) level
      width := ← maybe (Json.nat? max32) width
      height := ← maybe (Json.nat? max32) height
      averageFrameRate := ← maybe string? averageFrameRate
      baseFrameRate := ← maybe string? baseFrameRate
      timeBase := ← maybe string? timeBase
      durationTicks := ← maybe Json.signed64? durationTicks
      duration := secondsText (← maybe string? duration)
      bitrate := naturalText (← maybe string? bitrate)
      channels := ← maybe (Json.nat? max32) channels
      language := language
      title := title
      isDefault := isDefault
      isCover := isCover
    }
  | _ => none

def Container.ofJson? (j : Json) : Option Container := do
  match ← j.fields? [⟨"format",.required⟩,⟨"streams",.defaulted⟩] with
  | [format,streams] =>
    some ⟨← must Format.ofJson? format,← withDefault [] (Json.list? Track.ofJson?) streams⟩
  | _ => none

def Container.read? (report : List UInt8) : Option Container :=
  (Json.read? report).bind Container.ofJson?

def timestamp? (j : Json) : Option (Option Int) := do
  match ← j.fields? [⟨"pts",.optional⟩] with
  | [pts] => maybe (Json.int? minSigned64 maxSigned64) pts
  | _ => none

def dropRepeats : List Int → List Int
  | a :: b :: rest => if a = b then dropRepeats (b :: rest) else a :: dropRepeats (b :: rest)
  | short => short

/-- The timestamps of the frames, each once and in order. -/
def keyframesOfJson? (j : Json) : Option (List Int) := do
  match ← j.fields? [⟨"frames",.defaulted⟩] with
  | [frames] =>
    let stamps ← withDefault [] (Json.list? timestamp?) frames
    some (dropRepeats ((stamps.filterMap id).mergeSort fun a b => a ≤ b))
  | _ => none

def readKeyframes? (report : List UInt8) : Option (List Int) :=
  (Json.read? report).bind keyframesOfJson?

end Playout.Probe
