import Playout.Http.Exchange
import Playout.Playback.Idle
import Playout.Playback.Shutdown

/-!
# Calls

The calls that a scenario makes on a server, as machines of one type, and what
they answer.
-/
namespace Playout.Scenario
open Playback (Lease Demand ReadyFile Summary)
open Catalogue (Inspection Scan Resolution Survey)
open Manifest (Candidates)

/-- What a call or a step of a scenario answers. -/
inductive Answer where
  | ok
  | flag (value : Bool)
  | flags (values : List Bool)
  | count (n : Nat)
  | seconds (n : Int)
  | failure (why : Error)
  | lease (launch : Option Nat)
  | ready (file : ReadyFile)
  | available (found : Available)
  | progress (report : Option Encoder.Report)
  | summary (summary : Summary)
  | job (job : Encoder.Job)
  | container (report : Probe.Container)
  | streams (streams : List Stream)
  | stream (stream : Stream)
  | keyframes (frames : List Int)
  | rendering (rendering : Rendering)
  | candidates (all : List Candidates)
  | response (isHead : Bool) (response : Http.Response)
  | spawned
  | noRun
  | noLease
  | noSession

/-- What a call comes to. -/
inductive Outcome where
  | lease (lease : Lease)
  | answer (answer : Answer)

def Answer.ofResult {α : Type} (answer : α → Answer) : Result α → Answer
  | .ok value => answer value
  | .error why => .failure why

/-- A call and where it waits. -/
inductive Call where
  | sleep (wake : Nat)
  | prepare (key : Playback.Key) (request : SegmentRequest) (phase : Resolution)
  | acquire (demand : Demand) (phase : Playback.Acquire)
  | bind (lease : Lease) (phase : Playback.Bind)
  | await (lease : Lease) (request : SegmentRequest) (timeout : Nat) (isServed : Bool) (phase : Playback.Await)
  | mark (lease : Lease) (index : Nat) (highest : Option Nat) (answer : Answer) (phase : Playback.Served)
  | report (run : RunId) (report : Encoder.Report) (rest : List Encoder.Report)
      (throttled : List Bool) (phase : Playback.Feedback)
  | cleanUp (phase : Playback.Cleanup)
  | keepClean (interval cancel : Nat) (phase : Playback.Cleaning)
  | shutDown (timeout : Nat) (phase : Playback.Shutdown)
  | inspect (path : List Char) (phase : Inspection)
  | streams (locator : Locator) (index : Option Nat) (phase : Inspection)
  | scan (key : StreamKey) (phase : Scan)
  | resolve (key : StreamKey) (id : RepresentationId) (phase : Resolution)
  | survey (locator : Locator) (phase : Survey)
  | exchange (request : Http.Request) (phase : Http.Exchange)

namespace Call

def answer (s : Server) (a : Answer) : Turn Server Call Outcome := .ends s (.answer a)

def leased (s : Server) : Result Lease → Turn Server Call Outcome
  | .ok lease => .ends s (.lease lease)
  | .error why => answer s (.failure why)

def nextReport (run : RunId) (throttled : List Bool) (s : Server) : List Encoder.Report → Turn Server Call Outcome
  | [] => answer s (.flags throttled)
  | next :: rest => .goesOn s (report run next rest throttled .lookup)

def streamsAnswer (locator : Locator) (index : Option Nat) (found : Probe.Container) : Answer :=
  match index with
  | none => .ofResult .streams (Catalogue.playableStreams locator found)
  | some index => .ofResult .stream (Catalogue.streamOf ⟨locator,index⟩ found)

def turn (config : Config) (clock : Clock) (call : Call) (s : Server) : Turn Server Call Outcome :=
  let policy := Policy.ofConfig config
  let seconds := config.transcode.segmentSeconds
  match call with
  | sleep wake => if clock.millis < wake then .blocked (some wake) else answer s .ok
  | prepare key request phase =>
    (s.onCatalogue (phase.turn seconds clock key.stream key.representation)).within
      (prepare key request) fun s result =>
        match result with
        | .error why => answer s (.failure why)
        | .ok rendering =>
          let source := String.ofList (s.catalogue.pathOf key.stream.locator)
          .goesOn s (acquire ⟨key,request,rendering,source⟩ .lookup)
  | acquire demand phase =>
    (s.onPlayback (phase.turn policy clock demand)).within (acquire demand) leased
  | bind lease phase => (s.onPlayback (phase.turn policy clock lease)).within (bind lease) leased
  | await lease request timeout isServed phase =>
    (s.onPlayback (phase.turn clock lease request timeout)).within
      (await lease request timeout isServed) fun s result =>
        match result, request, isServed with
        | .ok file, .segment index, true =>
          .goesOn s (mark lease index file.available.highest (.ready file) .begin)
        | result, _, _ => answer s (.ofResult .ready result)
  | mark lease index highest last phase =>
    (s.onPlayback (phase.turn policy lease index highest)).within (mark lease index highest last)
      fun s _ => answer s last
  | report run next rest throttled phase =>
    (s.onPlayback (phase.turn policy run next)).within (report run next rest throttled)
      fun s result => nextReport run (throttled ++ [result]) s rest
  | cleanUp phase =>
    (s.onPlayback (phase.turn policy clock)).within cleanUp fun s n => answer s (.count n)
  | keepClean interval cancel phase =>
    (s.onPlayback (phase.turn policy clock interval cancel)).within (keepClean interval cancel)
      fun s _ => answer s (.flag true)
  | shutDown timeout phase =>
    (s.onPlayback (phase.turn clock timeout)).within (shutDown timeout) fun s summary =>
      answer s (.summary summary)
  | inspect path phase =>
    (s.onCatalogue (phase.turn path)).within (inspect path) fun s result =>
      answer s (.ofResult .container result)
  | streams locator index phase =>
    (s.onCatalogue (phase.turn (s.catalogue.pathOf locator))).within (streams locator index)
      fun s result =>
        match result with
        | .ok found => answer s (streamsAnswer locator index found)
        | .error why => answer s (.failure why)
  | scan key phase =>
    (s.onCatalogue (phase.turn (s.catalogue.pathOf key.locator) key.index)).within (scan key)
      fun s result => answer s (.ofResult .keyframes result)
  | resolve key id phase =>
    (s.onCatalogue (phase.turn seconds clock key id)).within (resolve key id) fun s result =>
      answer s (.ofResult .rendering result)
  | survey locator phase =>
    (s.onCatalogue (phase.turn seconds clock locator)).within (survey locator) fun s result =>
      answer s (.ofResult .candidates result)
  | exchange request phase =>
    (phase.turn config clock request s).within (exchange request) fun s response =>
      answer s (.response (request.method = "HEAD") response)

end Call
end Playout.Scenario
