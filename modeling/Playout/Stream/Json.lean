import Playout.Json.Record
import Playout.Stream.Basic

/-!
# Streams in JSON

The stored layout of a stream. Fields that came later have defaults, so that
older records are still read.
-/
namespace Playout

def Ratio.toJson (r : Ratio) : Json := .record [("num",.int r.num),("den",.int r.den)]

def Ratio.ofJson? (j : Json) : Option Ratio := do
  let whole := Json.int? minSigned64 maxSigned64
  match ← j.fields? [⟨"num",.required⟩,⟨"den",.required⟩] with
  | [num,den] => some ⟨← Json.must whole num,← Json.must whole den⟩
  | _ => none

namespace Stream

def fields : List Json.Field :=
  [⟨"index",.required⟩,⟨"duration",.required⟩,⟨"time_base",.required⟩,
    ⟨"duration_ticks",.required⟩,⟨"codec",.required⟩,⟨"codec_name",.required⟩,
    ⟨"bitrate",.required⟩,⟨"frame_rate",.defaulted⟩,⟨"width",.defaulted⟩,
    ⟨"height",.defaulted⟩,⟨"stream_type",.required⟩,⟨"language",.defaulted⟩,
    ⟨"title",.defaulted⟩,⟨"default",.defaulted⟩]

def string? (j : Json) : Option String := j.text?.map String.ofList

def ofJson? (j : Json) : Option Stream := do
  match ← j.fields? fields with
  | [index,duration,timeBase,durationTicks,codec,codecName,bitrate,frameRate,width,height,
      kind,language,title,isDefault] =>
    let ticks ← Json.must Json.signed64? durationTicks
    some {
      index := ← Json.must (Json.nat? max32) index
      duration := ← Json.must Json.float? duration
      timeBase := ← Json.must Ratio.ofJson? timeBase
      durationTicks := ticks.1
      fits := ticks.2
      codec := ← Json.must string? codec
      codecName := ← Json.must string? codecName
      bitrate := ← Json.must (Json.nat? max64) bitrate
      frameRate := ← Json.withDefault Ratio.zero Ratio.ofJson? frameRate
      width := ← Json.withDefault 0 (Json.nat? max32) width
      height := ← Json.withDefault 0 (Json.nat? max32) height
      kind := ← Json.must (Json.alternative? StreamKind.ofName?) kind
      language := ← Json.maybe string? language
      title := ← Json.maybe string? title
      isDefault := ← Json.withDefault false Json.bool? isDefault
    }
  | _ => none

def toJson (duration : Json) (s : Stream) : Json :=
  .record [("index",.nat s.index),("duration",duration),("time_base",s.timeBase.toJson),
    ("duration_ticks",.int s.durationTicks),("codec",.text s.codec),
    ("codec_name",.text s.codecName),("bitrate",.nat s.bitrate),
    ("frame_rate",s.frameRate.toJson),("width",.nat s.width),("height",.nat s.height),
    ("stream_type",.text s.kind.name),("language",Json.optional .text s.language),
    ("title",Json.optional .text s.title),("default",.bool s.isDefault)]

end Stream
end Playout
