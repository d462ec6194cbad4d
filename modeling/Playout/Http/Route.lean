import Playout.Http.Request
import Playout.Manifest.Offer
import Playout.Playback.State

/-!
# Routes

What can be asked of the server, and how the path and the method of a request
say so.
-/
namespace Playout.Http

/-- A manifest of a file. -/
inductive ManifestKind where
  | hls (mode : Manifest.Mode)
  | dash

def ManifestKind.ofName? (name : List Char) : Option ManifestKind :=
  match String.ofList name with
  | "hls-manifest.m3u8" => some (.hls .best)
  | "hls-transmuxing-manifest.m3u8" => some (.hls .copies)
  | "hls-transcoding-manifest.m3u8" => some (.hls .encodings)
  | "dash-manifest.mpd" => some .dash
  | _ => none

def hlsType : String := "application/x-mpegURL"

def dashType : String := "application/dash+xml"

/-- The parts of the name of a rendition, and a file of it, as they were sent. -/
structure RenditionPath where
  locator : String
  player : String
  stream : Nat
  representation : String
  file : String

/-- The playback session that the parts of a rendition's name stand for. -/
def RenditionPath.key (p : RenditionPath) : Result Playback.Key := do
  let locator ← Locator.parse p.locator
  let player ← PlayerId.parse p.player
  let representation ← RepresentationId.parse p.representation
  pure ⟨⟨locator,p.stream⟩,representation,player⟩

/-- What is asked for. -/
inductive Route where
  | health
  | manifest (kind : ManifestKind) (locator : String)
  | streams (locator : String)
  | rendition (path : RenditionPath)
  | progress (run : String)

/-- What a path stands for, before its parameters are read. -/
inductive Pattern where
  | health
  | manifest (kind : ManifestKind)
  | streams
  | rendition
  | progress

/-- What the parts of a path stand for, with the parameters among them. -/
def Pattern.ofParts? (parts : List (List Char)) : Option (Pattern × List (List Char)) :=
  let found := match parts with
    | [a] => if a = "health".toList then some (health,[]) else none
    | [a,b,c,d] =>
      if a = "files".toList then
        if d = "streams".toList then some (streams,[b,c])
        else (ManifestKind.ofName? d).map fun kind => (manifest kind,[b,c])
      else if a = "internal".toList ∧ b = "transcoder".toList ∧ d = "progress".toList then
        some (progress,[c])
      else none
    | [a,b,c,d,e,f] =>
      if a = "files".toList then some (rendition,[b,c,d,e,f]) else none
    | _ => none
  found.filter fun f => f.2.all (· ≠ [])

def Pattern.method : Pattern → String
  | progress => "POST"
  | _ => "GET"

/-- What a pattern with parameters asks for, if they can be read. -/
def Pattern.route? : Pattern → List String → Option Route
  | health, [] => some .health
  | manifest kind, [locator,_] => some (.manifest kind locator)
  | streams, [locator,_] => some (.streams locator)
  | progress, [run] => some (.progress run)
  | rendition, [locator,player,stream,representation,file] =>
    (Text.natural? max32 stream.toList).map fun stream =>
      .rendition ⟨locator,player,stream,representation,file⟩
  | _, _ => none

/-- What a request asks for, or the response that says that it asks for nothing: an unknown path, a method that the path
    is not for, or parameters that cannot be read. What can be got can be asked for without its content. -/
def Request.route (r : Request) : Except Nat Route :=
  if r.method = "OPTIONS" then .error 200
  else
    match Pattern.ofParts? r.parts with
    | none => .error 404
    | some (pattern,raw) =>
      if r.method = pattern.method ∨ (r.method = "HEAD" ∧ pattern.method = "GET") then
        match (parameters? raw).bind pattern.route? with
        | some route => .ok route
        | none => .error 400
      else .error 405

end Playout.Http
