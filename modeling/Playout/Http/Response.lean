import Playout.Error
import Playout.Stream.Json
import Playout.Text.Utf8

/-!
# Responses

The status, the two headers that say something, and the content of a response.
-/
namespace Playout.Http

/-- The content of a response. -/
inductive Content where
  | nothing
  | bytes (content : List UInt8)
  | streams (streams : List Stream)
  | failure (why : Error)

structure Response where
  status : Nat
  contentType : Option String := none
  cacheControl : Option String := none
  content : Content := .nothing

def jsonType : String := "application/json"

namespace Response

def plain (status : Nat) : Response := { status }

/-- What is served without being cached. -/
def fresh (contentType : String) (content : List UInt8) : Response :=
  ⟨200,some contentType,some "no-cache",.bytes content⟩

/-- A text that is served without being cached. -/
def text (contentType body : String) : Response := fresh contentType (Text.Utf8.encode body.toList)

def streams (streams : List Stream) : Response := ⟨200,some jsonType,none,.streams streams⟩

def failure (why : Error) : Response := ⟨why.httpStatus,some jsonType,none,.failure why⟩

def withoutContent (r : Response) : Response := { r with content := .nothing }

end Response

/-- The public description of a stream, with its duration as given. -/
def streamInfo (duration : Json) (s : Stream) : Json :=
  .record [("index",.nat s.index),("type",.text s.kind.name),("codec",.text s.codec),
    ("codec_name",.text s.codecName),("bitrate",.nat s.bitrate),("duration",duration),
    ("width",.nat s.width),("height",.nat s.height),("frame_rate",.text s.frameRate.text),
    ("language",Json.optional .text s.language),("title",Json.optional .text s.title),
    ("default",.bool s.isDefault)]

/-- The JSON of a content, with durations written by `duration`; nothing if it is none. -/
def Content.json? (duration : Float → Json) : Content → Option Json
  | .nothing | .bytes _ => none
  | .streams all => some (.array (all.map fun s => streamInfo (duration s.duration) s))
  | .failure why =>
    some (.record [("error",.text why.message),("code",.text why.code)])

end Playout.Http
