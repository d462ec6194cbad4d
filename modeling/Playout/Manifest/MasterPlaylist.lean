import Playout.Binary64.Fixed
import Playout.Playable

/-!
# HLS master playlists

The renditions and variants that a player chooses from. All URIs are relative to
the master playlist.
-/
namespace Playout.Manifest

/-- The kind of an alternative rendition. -/
inductive RenditionKind where
  | audio
  | subtitles
  deriving DecidableEq, Repr

def RenditionKind.name : RenditionKind → String
  | audio => "AUDIO"
  | subtitles => "SUBTITLES"

/-- An alternative rendition. -/
structure Rendition where
  kind : RenditionKind
  group : String
  name : String
  language : Option String
  isDefault : Bool
  uri : String

/-- A variant of the presentation. -/
structure Variant where
  uri : String
  /-- Bits per second. -/
  bandwidth : Nat
  /-- Pixels across and down, unless audio alone. -/
  resolution : Option (Nat × Nat)
  codecs : String
  frameRate : Option Float
  audioGroup : Option String
  subtitleGroup : Option String

structure MasterPlaylist where
  renditions : List Rendition
  variants : List Variant

/-- One character inside quotes: a double quote becomes a single one, a line break a space. -/
def quotedChar (c : Char) : Char :=
  if c = '"' then '\'' else if c = '\r' ∨ c = '\n' then ' ' else c

def quoted (s : String) : String := String.ofList (s.toList.map quotedChar)

def quotedAttribute (name value : String) : String := name ++ "=\"" ++ value ++ "\""

def Rendition.line (r : Rendition) : String :=
  "#EXT-X-MEDIA:TYPE=" ++ r.kind.name ++ "," ++ quotedAttribute "GROUP-ID" (quoted r.group) ++ "," ++
    quotedAttribute "NAME" (quoted r.name) ++
    (match r.language with
      | some language => "," ++ quotedAttribute "LANGUAGE" (quoted language)
      | none => "") ++
    ",DEFAULT=" ++ (if r.isDefault then "YES" else "NO") ++ ",AUTOSELECT=YES," ++ quotedAttribute "URI" r.uri

def Variant.lines (v : Variant) : List String :=
  ["#EXT-X-STREAM-INF:BANDWIDTH=" ++ toString v.bandwidth ++ (match v.resolution with
      | some (width,height) => ",RESOLUTION=" ++ toString width ++ "x" ++ toString height
      | none => "") ++
    (if v.codecs = "" then "" else "," ++ quotedAttribute "CODECS" v.codecs) ++
    (match v.frameRate with
      | some rate => ",FRAME-RATE=" ++ String.ofList (Binary64.fixed 3 rate)
      | none => "") ++
    (match v.audioGroup with
      | some group => "," ++ quotedAttribute "AUDIO" group
      | none => "") ++
    (match v.subtitleGroup with
      | some group => "," ++ quotedAttribute "SUBTITLES" group
      | none => ""),
    v.uri]

def MasterPlaylist.lines (p : MasterPlaylist) : List String :=
  ["#EXTM3U","#EXT-X-VERSION:6","#EXT-X-INDEPENDENT-SEGMENTS"] ++ p.renditions.map Rendition.line ++
    p.variants.flatMap Variant.lines

def MasterPlaylist.render (p : MasterPlaylist) : String := String.join (p.lines.map (· ++ "\n"))

/-- A video rendering with the group of audio renderings that it plays with; all of them have one codec, so that players
    change languages without changing decoders. -/
structure Combination where
  video : Option Rendering
  audio : List Rendering
  group : String
  audioCodec : String

def subtitleGroup : String := "subs"

/-- The name that a player shows for a rendering: the title, the language, or its number. -/
def displayName (fallback : String) (r : Rendering) : String :=
  match r.stream.title, r.stream.language with
  | some title, _ => title
  | none, some language => language
  | none, none => fallback ++ " " ++ toString r.stream.index

def playlistUri (r : Rendering) : String := r.directory ++ "/index.m3u8"

def renditionsOf (kind : RenditionKind) (group fallback : String) (preferred : Option Nat)
    (rs : List Rendering) : List Rendition :=
  rs.zipIdx.map fun (r,i) =>
    ⟨kind,group,displayName fallback r,r.stream.language,preferred == some i,playlistUri r⟩

/-- The position of the first rendering whose stream is marked as default. -/
def preferred? (rs : List Rendering) : Option Nat := rs.findIdx? (·.stream.isDefault)

/-- The renditions of the groups that combinations name, each group once. -/
def audioRenditions (seen : List String) : List Combination → List Rendition
  | [] => []
  | c :: rest =>
    if seen.contains c.group then audioRenditions seen rest
    else
      renditionsOf .audio c.group "Audio" (some ((preferred? c.audio).getD 0)) c.audio ++
        audioRenditions (c.group :: seen) rest

/-- The greatest of some numbers, zero if there are none. -/
def greatestNat (ns : List Nat) : Nat := ns.foldl max 0

/-- The bitrate of the fastest audio rendering of a combination. -/
def Combination.audioBitrate (c : Combination) : Nat := greatestNat (c.audio.map Rendering.bitrate)

/-- Whether the bandwidth of a combination is the sum of two bitrates; if not, a build that checks for it stops. -/
def Combination.BandwidthFits (c : Combination) : Prop :=
  (c.video.map Rendering.bitrate).getD 0 + c.audioBitrate ≤ max64

instance (c : Combination) : Decidable c.BandwidthFits :=
  inferInstanceAs (Decidable ((c.video.map Rendering.bitrate).getD 0 + c.audioBitrate ≤ max64))

/-- The variant of a combination; none if it has neither video nor audio. -/
def variant? (subtitles : Option String) (c : Combination) : Option Variant :=
  let group := if c.audio.isEmpty then none else some c.group
  match c.video with
  | some video =>
    let r := video.representation
    let rate := video.stream.frameRate.toFloat
    some {
      uri := playlistUri video
      bandwidth := wrap64 (r.bitrate + c.audioBitrate)
      resolution := some (r.width,r.height)
      codecs := if group.isSome then r.codec ++ "," ++ c.audioCodec else r.codec
      frameRate := if rate > 0.0 then some rate else none
      audioGroup := group
      subtitleGroup := subtitles
    }
  | none =>
    c.audio.head?.map fun audio => {
      uri := playlistUri audio
      bandwidth := c.audioBitrate
      resolution := none
      codecs := c.audioCodec
      frameRate := none
      audioGroup := none
      subtitleGroup := subtitles
    }

def masterOf (combinations : List Combination) (subtitles : List Rendering) : MasterPlaylist :=
  let group := if subtitles.isEmpty then none else some subtitleGroup
  { renditions := audioRenditions [] combinations ++
      renditionsOf .subtitles subtitleGroup "Subtitles" (preferred? subtitles) subtitles
    variants := combinations.filterMap (variant? group) }

end Playout.Manifest
