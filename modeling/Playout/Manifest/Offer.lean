import Playout.Manifest.MasterPlaylist
import Playout.Manifest.Mpd

/-!
# What a manifest offers

Which renderings of a file stand in its manifests, given the codecs that the
player can decode.
-/
namespace Playout.Manifest

/-- A stream with all the renderings that it is offered in. -/
structure Candidates where
  stream : Stream
  renderings : List Rendering

/-- Which deliveries a master playlist offers. -/
inductive Mode where
  | best
  | copies
  | encodings
  deriving DecidableEq, Repr

def ofKind (kind : StreamKind) (cs : List Candidates) : List Candidates :=
  cs.filter fun c => c.stream.kind == kind

def Candidates.copy? (c : Candidates) : Option Rendering :=
  c.renderings.find? fun r => r.representation.isCopy

def Candidates.encodings (c : Candidates) : List Rendering :=
  c.renderings.filter fun r => !r.representation.isCopy

/-- The video renderings that are offered of a stream, the best first. -/
def videoLadder (mode : Mode) (p : Playable) (c : Candidates) : List Rendering :=
  match mode with
  | .best => selectLadder p c.renderings
  | .copies => c.copy?.toList
  | .encodings => selectLadder p c.encodings

def audioChoice (mode : Mode) (p : Playable) (c : Candidates) : Option Rendering :=
  match mode with
  | .best => chooseBest p c.renderings
  | .copies => c.copy?
  | .encodings => chooseBest p c.encodings

/-- Adds a rendering to the group of its codec, or as a new group at the end. -/
def addToCodec (r : Rendering) : List (String × List Rendering) → List (String × List Rendering)
  | [] => [(r.representation.codec,[r])]
  | (codec,members) :: rest =>
    if codec = r.representation.codec then (codec,members ++ [r]) :: rest
    else (codec,members) :: addToCodec r rest

/-- Audio renderings grouped by codec, so that a variant never mixes decoders. -/
def audioGroups (rs : List Rendering) : List (String × List Rendering) :=
  rs.foldl (fun groups r => addToCodec r groups) []

def groupName (codec : String) : String := "audio-" ++ codec

/-- Every video rendering with every audio group; audio alone if there is no video. -/
def combinations (videos audio : List Rendering) : List Combination :=
  let groups := audioGroups audio
  let paired := fun (video : Option Rendering) =>
    groups.map fun (codec,members) => (⟨video,members,groupName codec,codec⟩ : Combination)
  if videos.isEmpty then paired none
  else if groups.isEmpty then videos.map fun v => ⟨some v,[],"",""⟩
  else videos.flatMap fun v => paired (some v)

def nothingPlayable : Error := .validation "no playable representation for the requested codecs"

/-- The master playlist of a file. Subtitles are always offered. -/
def hlsMaster (cs : List Candidates) (p : Playable) (mode : Mode) : Result MasterPlaylist :=
  let videos := (ofKind .video cs).flatMap (videoLadder mode p)
  let audio := (ofKind .audio cs).filterMap (audioChoice mode p)
  let subtitles := (ofKind .subtitle cs).filterMap Candidates.copy?
  if videos.isEmpty && audio.isEmpty then .error nothingPlayable
  else .ok (masterOf (combinations videos audio) subtitles)

def dashManifest (cs : List Candidates) (p : Playable) : Result String :=
  let select := fun kind => (ofKind kind cs).flatMap fun c => selectLadder p c.renderings
  let video := select .video
  let audio := select .audio
  if video.isEmpty && audio.isEmpty then .error nothingPlayable else .ok (mpd video audio)

end Playout.Manifest
