import Playout.Catalogue.Resolution
import Playout.Http.Response
import Playout.Http.Route
import Playout.Playback.Await
import Playout.Playback.Bind
import Playout.Playback.Feedback
import Playout.Playback.Served

/-!
# Exchanges

How a request is answered: manifests from a survey of the file, playlists from
one rendering, and the files of renditions from a run that is acquired, bound,
waited for, read and told what was served.
-/
namespace Playout

/-- A server: what it knows about files, and its session table. -/
structure Server where
  catalogue : Catalogue.State
  playback : Playback.State

namespace Server

def onCatalogue {φ ρ : Type} (s : Server) (turn : Catalogue.State → Turn Catalogue.State φ ρ) : Turn Server φ ρ :=
  (turn s.catalogue).lift fun catalogue => { s with catalogue }

def onPlayback {φ ρ : Type} (s : Server) (turn : Playback.State → Turn Playback.State φ ρ) : Turn Server φ ρ :=
  (turn s.playback).lift fun playback => { s with playback }

def drop (s : Server) (clock : Clock) (lease : Playback.Lease) : Server :=
  { s with playback := s.playback.drop clock lease }

end Server

namespace Http
open Playback (Lease Demand ReadyFile)

/-- A file of a rendition that was asked for, and what it needs of a run. -/
structure Wanted where
  file : RenditionFile
  demand : Demand

/-- Where an exchange waits. -/
inductive Exchange where
  | begin
  | surveying (kind : ManifestKind) (locator : Locator) (phase : Catalogue.Survey)
  | inspecting (locator : Locator) (phase : Catalogue.Inspection)
  | resolving (key : Playback.Key) (file : RenditionFile) (phase : Catalogue.Resolution)
  | acquiring (wanted : Wanted) (phase : Playback.Acquire)
  | binding (wanted : Wanted) (lease : Lease) (phase : Playback.Bind)
  | awaiting (wanted : Wanted) (lease : Lease) (phase : Playback.Await)
  | reading (wanted : Wanted) (lease : Lease) (ready : ReadyFile)
  | marking (wanted : Wanted) (lease : Lease) (index : Nat) (highest : Option Nat)
      (response : Response) (phase : Playback.Served)
  | reporting (run : RunId) (report : Encoder.Report) (rest : List Encoder.Report) (phase : Playback.Feedback)

namespace Exchange

def failed (s : Server) (why : Error) : Turn Server Exchange Response := .ends s (.failure why)

def attempt {φ ρ : Type} (turn : Turn Server φ (Result ρ)) (phase : φ → Exchange)
    (next : Server → ρ → Turn Server Exchange Response) : Turn Server Exchange Response :=
  turn.within phase fun s result =>
    match result with
    | .ok value => next s value
    | .error why => failed s why

def manifest (kind : ManifestKind) (candidates : List Manifest.Candidates) (playable : Playable) : Result Response :=
  match kind with
  | .hls mode => (Manifest.hlsMaster candidates playable mode).map fun m => .text hlsType m.render
  | .dash => (Manifest.dashManifest candidates playable).map (.text dashType)

def nextReport (run : RunId) (s : Server) : List Encoder.Report → Turn Server Exchange Response
  | [] => .ends s (.plain 204)
  | report :: rest => .goesOn s (reporting run report rest .lookup)

def demand (s : Server) (key : Playback.Key) (file : RenditionFile) (rendering : Rendering) :
    Turn Server Exchange Response :=
  if !file.fits rendering.kind then
    failed s (.validation (file.sortText ++ " is not served for " ++ rendering.kind.name ++ " streams"))
  else
    let source := String.ofList (s.catalogue.pathOf key.stream.locator)
    match file.request? with
    | none => .ends s (.text hlsType (Manifest.MediaPlaylist.ofRendering rendering).render)
    | some .header => .goesOn s (acquiring ⟨file,⟨key,.header,rendering,source⟩⟩ .lookup)
    | some (.segment index) =>
      if rendering.segmentCount ≤ index then failed s (.segmentNotFound (toString index))
      else .goesOn s (acquiring ⟨file,⟨key,.segment index,rendering,source⟩⟩ .lookup)

/-- Whether a file is renumbered: the runs that do not start with the first segment number their fragments from one. -/
def needsNumbers (request : SegmentRequest) (ready : ReadyFile) : Bool :=
  ready.first != 0 && request != .header && Path.extension? ready.name.toList == some "m4s".toList

def response (wanted : Wanted) (ready : ReadyFile) (content : List UInt8) : Response :=
  let kind := match wanted.file with
    | .header => "video/mp4"
    | _ => wanted.demand.rendering.representation.mimeType
  match wanted.demand.request with
  | .segment index =>
    if needsNumbers wanted.demand.request ready then
      .fresh kind (Fragment.renumber (index + 1) content.toArray).1.toList
    else .fresh kind content
  | .header => .fresh kind content

def read (clock : Clock) (s : Server) (wanted : Wanted) (lease : Lease) (ready : ReadyFile) :
    Turn Server Exchange Response :=
  match (s.playback.runs[ready.run]?).bind fun r => r.file? ready.name with
  | none => failed (s.drop clock lease) (.segmentNotFound wanted.demand.request.text)
  | some file =>
    let response := response wanted ready file.content
    match wanted.demand.request with
    | .header => .ends (s.drop clock lease) response
    | .segment index =>
      .goesOn s (marking wanted lease index ready.available.highest response .begin)

def start (s : Server) (body : List (List UInt8)) (route : Route) : Turn Server Exchange Response :=
  match route with
  | .health => .ends s (.plain 200)
  | .manifest kind locator =>
    match Locator.parse locator with
    | .error why => failed s why
    | .ok locator => .goesOn s (surveying kind locator .begin)
  | .streams locator =>
    match Locator.parse locator with
    | .error why => failed s why
    | .ok locator => .goesOn s (inspecting locator .stat)
  | .progress run =>
    match RunId.parse run with
    | .error why => failed s why
    | .ok run => nextReport run s (Encoder.ProgressParser.start.pushAll body).flatten
  | .rendition path =>
    match (do pure (← path.key,← RenditionFile.parse path.file) : Result _) with
    | .error why => failed s why
    | .ok (key,file) => .goesOn s (resolving key file .begin)

/-- A turn of an exchange whose request asks for something. -/
def routed (config : Config) (clock : Clock) (request : Request) (route : Route) (phase : Exchange)
    (s : Server) : Turn Server Exchange Response :=
  let policy := Policy.ofConfig config
  let seconds := config.transcode.segmentSeconds
  match phase with
  | begin => start s request.body route
  | surveying kind locator phase =>
    attempt (s.onCatalogue (phase.turn seconds clock locator)) (surveying kind locator)
      fun s candidates =>
        match manifest kind candidates (.ofQuery request.query) with
        | .ok response => .ends s response
        | .error why => failed s why
  | inspecting locator phase =>
    attempt (s.onCatalogue (phase.turn (s.catalogue.pathOf locator))) (inspecting locator)
      fun s report =>
        match Catalogue.playableStreams locator report with
        | .ok streams => .ends s (.streams streams)
        | .error why => failed s why
  | resolving key file phase =>
    attempt (s.onCatalogue (phase.turn seconds clock key.stream key.representation))
      (resolving key file) fun s rendering => demand s key file rendering
  | acquiring wanted phase =>
    attempt (s.onPlayback (phase.turn policy clock wanted.demand)) (acquiring wanted)
      fun s lease => .goesOn s (binding wanted lease .begin)
  | binding wanted lease phase =>
    attempt (s.onPlayback (phase.turn policy clock lease)) (binding wanted lease)
      fun s lease => .goesOn s (awaiting wanted lease .begin)
  | awaiting wanted lease phase =>
    let timeout := config.transcode.segmentTimeoutSeconds * 1000
    (s.onPlayback (phase.turn clock lease wanted.demand.request timeout)).within
      (awaiting wanted lease) fun s result =>
        match result with
        | .ok ready => .goesOn s (reading wanted lease ready)
        | .error why => failed (s.drop clock lease) why
  | reading wanted lease ready => read clock s wanted lease ready
  | marking wanted lease index highest response phase =>
    (s.onPlayback (phase.turn policy lease index highest)).within
      (marking wanted lease index highest response) fun s _ => .ends (s.drop clock lease) response
  | reporting run report rest phase =>
    (s.onPlayback (phase.turn policy run report)).within (reporting run report rest) fun s _ =>
      nextReport run s rest

def turn (config : Config) (clock : Clock) (request : Request) (phase : Exchange) (s : Server) :
    Turn Server Exchange Response :=
  match request.route with
  | .error status => .ends s (.plain status)
  | .ok route =>
    let turn := routed config clock request route phase s
    if request.method = "HEAD" then turn.within id fun s r => .ends s r.withoutContent else turn

end Exchange
end Http
end Playout
