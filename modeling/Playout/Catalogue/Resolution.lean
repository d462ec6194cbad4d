import Playout.Catalogue.Inspection
import Playout.Manifest.Offer

/-!
# Resolution

From the key of a stream and an id to a rendering: the file is inspected, its
modification time is looked up, and the rendering is taken from the cache or made
afresh. `Survey` does so for everything that a file is offered in.
-/
namespace Playout.Catalogue

/-- Where a resolution waits. -/
inductive Resolution where
  | inspecting (phase : Inspection)
  | dating (stream : Stream)
  | consulting (stream : Stream) (modified : Int)
  | scanning (stream : Stream) (modified : Int) (phase : Scan)
  | keeping (modified : Int) (rendering : Rendering)

namespace Resolution

def begin : Resolution := .inspecting .stat

def made (segmentSeconds : Float) (id : RepresentationId) (stream : Stream) (modified : Int)
    (frames : List Int) (s : State) : Turn State Resolution (Result Rendering) :=
  match resolve segmentSeconds stream id frames with
  | .error e => .ends s (.error e)
  | .ok rendering => .goesOn s (keeping modified rendering)

/-- A turn of a resolution, with segments of about `segmentSeconds`. -/
def turn (segmentSeconds : Float) (clock : Clock) (key : StreamKey) (id : RepresentationId)
    (phase : Resolution) (s : State) : Turn State Resolution (Result Rendering) :=
  let path := s.pathOf key.locator
  match phase with
  | inspecting phase =>
    (phase.turn path s).orFail inspecting fun s report =>
      match streamOf key report with
      | .error e => .ends s (.error e)
      | .ok stream => .goesOn s (dating stream)
  | dating stream =>
    match s.stat path with
    | .error e => .ends s (.error e)
    | .ok file => .goesOn s (consulting stream file.modified)
  | consulting stream modified =>
    let (renderings,found) := s.renderings.lookup clock.nanos (some modified) (key,id)
    let s := { s with renderings }
    match found with
    | some rendering => .ends s (.ok rendering)
    | none =>
      if needsKeyframes stream id then .goesOn s (scanning stream modified .stat)
      else made segmentSeconds id stream modified [] s
  | scanning stream modified phase =>
    (phase.turn path key.index s).orFail (scanning stream modified) fun s frames =>
      made segmentSeconds id stream modified frames s
  | keeping modified rendering =>
    .ends
      { s with renderings :=
          s.renderings.insert clock.nanos (some modified) (key,id) rendering }
      (.ok rendering)

end Resolution

/-- Where a survey of everything that a file is offered in waits: for the inspection, or for one rendering, with what is
    done and what is still to be done. -/
inductive Survey where
  | inspecting (phase : Inspection)
  | resolving (finished : List Manifest.Candidates) (stream : Stream) (renderings : List Rendering)
      (id : RepresentationId) (ids : List RepresentationId) (streams : List Stream)
      (phase : Resolution)

namespace Survey

def begin : Survey := .inspecting .stat

def nextStream (finished : List Manifest.Candidates) (s : State) :
    List Stream → Turn State Survey (Result (List Manifest.Candidates))
  | [] => .ends s (.ok finished)
  | stream :: streams =>
    match candidateIds stream with
    | [] => nextStream (finished ++ [⟨stream,[]⟩]) s streams
    | id :: ids => .goesOn s (resolving finished stream [] id ids streams .begin)

def turn (segmentSeconds : Float) (clock : Clock) (locator : Locator) (phase : Survey) (s : State) :
    Turn State Survey (Result (List Manifest.Candidates)) :=
  match phase with
  | inspecting phase =>
    (phase.turn (s.pathOf locator) s).orFail inspecting fun s report =>
      match playableStreams locator report with
      | .error e => .ends s (.error e)
      | .ok streams => nextStream [] s streams
  | resolving finished stream renderings id ids streams phase =>
    (phase.turn segmentSeconds clock ⟨locator,stream.index⟩ id s).orFail
      (resolving finished stream renderings id ids streams) fun s rendering =>
        let renderings := renderings ++ [rendering]
        match ids with
        | id :: ids => .goesOn s (resolving finished stream renderings id ids streams .begin)
        | [] => nextStream (finished ++ [⟨stream,renderings⟩]) s streams

end Survey
end Playout.Catalogue
