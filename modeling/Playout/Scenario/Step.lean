import Playout.Scenario.Scene

/-!
# Steps

The steps of a scenario: calls on the server, made one after another or behind
each other, and what happens around it to files, processes and clocks.
-/
namespace Playout.Scenario
open Playback (Lease)

/-- The names of a rendering, as a player sends them. -/
structure Names where
  file : String
  stream : Nat
  representation : String
  player : String

/-- What happens to a path of the library. -/
inductive FileChange where
  | write (file : Catalogue.MediaFile)
  | remove
  | makeDirectory

/-- A request as text, where `{run:N}` stands for the id of a run. -/
structure HttpCall where
  method : String
  target : String
  body : List (List UInt8)

inductive Step where
  | acquire (lease : String) (names : Names) (request : SegmentRequest)
  | bind (lease : String)
  | bindBehind (lease : String)
  | join (lease : String)
  | wait (lease : String) (request : SegmentRequest) (timeout : Nat) (isServed : Bool)
  | mark (lease : String) (request : SegmentRequest)
  | available (lease : String)
  | drop (lease : String)
  | progress (run : Option Nat) (text : List UInt8)
  | lastProgress (run : Nat)
  | exit (run : Nat) (how : Encoder.Exit)
  | produce (run start count : Nat)
  | refuseSignals (run : Nat) (refuses : Bool)
  | removeOutput (run : Nat)
  | script (script : Encoder.Script)
  | sleep (millis : Nat)
  | cleanUp
  | keepClean (interval millis : Nat)
  | shutDown (timeout : Nat)
  | job (run : Nat)
  | change (path : String) (change : FileChange)
  | probePath (path : String)
  | probe (file : String)
  | streams (file : String) (index : Option Nat)
  | keyframes (file : String) (index : Nat)
  | modified (file : String)
  | forget (path : String)
  | rendering (file : String) (index : Nat) (representation : String)
  | candidates (file : String)
  | clearCache
  | expireCache
  | dropCached (file : String) (index : Nat)
  | http (call : HttpCall)
  | httpBehind (name : String) (call : HttpCall)
  | httpJoin (name : String)

namespace Scene

/-! ### Names -/

def locate (file : String) : Result Locator := Locator.ofPath file.toList

def keyOf (n : Names) : Result Playback.Key := do
  let locator ← locate n.file
  let representation ← RepresentationId.parse n.representation
  let player ← PlayerId.parse n.player
  pure ⟨⟨locator,n.stream⟩,representation,player⟩

/-- The run that was started as one of the first, counted from zero. -/
def runAt? (s : Scene) (launch : Nat) : Option Nat := s.playback.launches[launch]?

def launchOf? (s : Scene) (run : Nat) : Option Nat := s.playback.launches.findIdx? (· == run)

def lease? (s : Scene) (name : String) : Option Lease :=
  (s.leases.find? (·.1 == name)).map (·.2)

def noteKey (s : Scene) (key : Playback.Key) : Scene :=
  if s.keys.contains key then s else { s with keys := s.keys ++ [key] }

/-! ### Leases -/

def giveBack (s : Scene) (lease : Lease) : Scene :=
  s.withPlayback (s.playback.drop s.clock lease)

/-- The scene where a lease is kept under a name, and the earlier one of the name is given back. -/
def keepLease (s : Scene) (name : String) (lease : Lease) : Scene :=
  let earlier := s.lease? name
  let s := { s with leases := s.leases.filter (·.1 != name) ++ [(name,lease)] }
  match earlier with
  | some lease => s.giveBack lease
  | none => s

def takeLease (s : Scene) (name : String) : Scene :=
  { s with leases := s.leases.filter (·.1 != name) }

/-- The scene where what a call came to is kept under a name, if it is a lease, and the answer. -/
def conclude (s : Scene) (name : String) : Outcome → Scene × Answer
  | .lease lease => (s.keepLease name lease,.lease (lease.run.bind s.launchOf?))
  | .answer (.ready file) => (s,.ready { file with run := (s.launchOf? file.run).getD file.run })
  | .answer answer => (s,answer)

/-- The scene after a call whose lease, if it comes to one, is kept under a name, and the answer. -/
def callFor (s : Scene) (name : String) (call : Call) : Scene × Answer :=
  let (s,outcome) := s.await call
  s.conclude name outcome

def call (s : Scene) (call : Call) : Scene × Answer := s.callFor "" call

/-- The scene after a call of what was found, or the failure to find it. -/
def callOf {α : Type} (s : Scene) (found : Result α) (call : α → Call) : Scene × Answer :=
  match found with
  | .ok value => s.call (call value)
  | .error why => (s,.failure why)

/-! ### Behind the steps -/

/-- The scene where a call goes on behind the steps under a name. -/
def start (s : Scene) (name : String) (call : Call) : Scene :=
  { s with behind := s.behind.filter (·.1 != name) ++ [(name,.going call)] }

/-- The scene when a call behind the steps has come to its end, and what it has come to. -/
def joined (s : Scene) (name : String) : Option (Scene × Outcome) :=
  match (s.behind.find? (·.1 == name)).map (·.2) with
  | none => none
  | some found =>
    let s := { s with behind := s.behind.filter (·.1 != name) }
    match found with
    | .going call => some (s.await call)
    | .done outcome => some (s,outcome)

def bindingName (lease : String) : String := "bind " ++ lease

def requestName (name : String) : String := "http " ++ name

/-! ### Requests -/

/-- What `{run:` is written as. -/
def runMark : List Char := "\x7brun:".toList

/-- A text with the ids of runs in place of their numbers, which are searched in at most `fuel` characters; nothing if
    there is no such run. -/
def expand (s : Scene) : Nat → List Char → Option (List Char)
  | 0, text => some text
  | _, [] => some []
  | fuel + 1, c :: rest =>
    match Text.dropStart? runMark (c :: rest) with
    | none => (s.expand fuel rest).map (c :: ·)
    | some after => do
      let (number,after) ← Text.splitFirst? '\x7d' after
      let launch ← Text.digits? number
      let r ← s.playback.runs[← s.runAt? launch]?
      (s.expand fuel after).map (r.job.run.text.toList ++ ·)

def requestOf? (s : Scene) (c : HttpCall) : Option Http.Request :=
  let target := c.target.toList
  (s.expand target.length target).map fun target => .ofTarget c.method target c.body

/-- The playback session that the target of a request names, if it has the form of one. -/
def targetKey? (r : Http.Request) : Option Playback.Key :=
  match r.parts with
  | _ :: parts => do
    guard (r.parts.head? = some "files".toList)
    match (← Http.parameters? parts) with
    | [locator,player,stream,representation,file] =>
      let index ← Text.natural? max32 stream.toList
      (Http.RenditionPath.key ⟨locator,player,index,representation,file⟩).toOption
    | _ => none
  | [] => none

/-- The scene where the playback session that a request names was asked for. -/
def noteTarget (s : Scene) (r : Http.Request) : Scene :=
  match targetKey? r with
  | some key => s.noteKey key
  | none => s

/-! ### Runs -/

/-- The scene with one run changed, and an answer; or that there is no such run. -/
def onRun (s : Scene) (launch : Nat) (f : Run → Run) (answer : Run → Answer) : Scene × Answer :=
  match s.runAt? launch with
  | none => (s,.noRun)
  | some run =>
    match s.playback.runs[run]? with
    | none => (s,.noRun)
    | some r => (s.withPlayback (s.playback.onRun run f),answer r)

/-- The scene with the process of a run changed; or that there is no such run. -/
def onProcess (s : Scene) (launch : Nat) (f : Encoder.Process → Encoder.Process) : Scene × Answer :=
  match (s.runAt? launch).bind fun run => (s.playback.runs[run]?).bind (·.process) with
  | none => (s,.noRun)
  | some process =>
    (s.withPlayback { s.playback with processes := s.playback.processes.modify process f },.ok)

/-- What is available of the run of a lease, or why nothing is. -/
def availableOf (s : Scene) (run : Nat) : Result Available :=
  match s.playback.runs[run]? with
  | none => .ok .none
  | some r =>
    match r.available? (s.playback.hasExited run) with
    | some a => .ok a
    | none => .error (.directory r.job.directory Playback.noSuchFile)

/-- The scene after a segment of a run that is listed was noted as served. -/
def noteServed (s : Scene) (lease : Lease) (index : Nat) : Scene × Answer :=
  match lease.run with
  | none => s.call (.mark lease index none .ok .begin)
  | some run =>
    match s.availableOf run with
    | .error why => (s,.failure why)
    | .ok a => s.call (.mark lease index a.highest .ok .begin)

/-- The scene after some progress of a run was reported, or of no run. -/
def reportProgress (s : Scene) (id : RunId) (text : List UInt8) : Scene × Answer :=
  match (Encoder.ProgressParser.start.push text).2 with
  | [] => (s,.flags [])
  | report :: rest => s.call (.report id report rest [] .lookup)

/-! ### Files -/

def changeFile (s : Scene) (path : List Char) (change : FileChange) : Scene × Answer :=
  let catalogue := s.server.catalogue
  let library := catalogue.library
  let put := fun (library : Catalogue.Library) => s.withCatalogue { catalogue with library }
  match change with
  | .write file => (put (library.addFile path file),.ok)
  | .remove =>
    match library.removeFile? path with
    | some library => (put library,.flag true)
    | none => (s,.flag false)
  | .makeDirectory =>
    match library.makeDirectories? (library.placeOf path) with
    | some library => (put library,.flag true)
    | none => (s,.flag false)

def pathOf (s : Scene) (path : String) : List Char :=
  Path.join s.server.catalogue.library.root path.toList

/-- The scene with a change of the cache of renderings, and whether the cache is empty then. -/
def onCache (s : Scene) (f : RenderingCache → RenderingCache) : Scene × Answer :=
  let renderings := f s.server.catalogue.renderings
  (s.withCatalogue { s.server.catalogue with renderings },.flag renderings.entries.isEmpty)

/-! ### Steps -/

/-- The scene after a step on a lease, if there is one of that name. -/
def onLease (s : Scene) (name : String) (f : Lease → Scene × Answer) : Scene × Answer :=
  match s.lease? name with
  | some lease => f lease
  | none => (s,.noLease)

def perform (s : Scene) (step : Step) : Scene × Answer :=
  match step with
  | .acquire name names request =>
    match keyOf names with
    | .error why => (s,.failure why)
    | .ok key => (s.noteKey key).callFor name (.prepare key request .begin)
  | .bind name =>
    s.onLease name fun lease => (s.takeLease name).callFor name (.bind lease .begin)
  | .bindBehind name =>
    s.onLease name fun lease =>
      ((s.takeLease name).start (bindingName name) (.bind lease .begin),.spawned)
  | .join name =>
    match s.joined (bindingName name) with
    | some (s,outcome) => s.conclude name outcome
    | none => (s,.noLease)
  | .wait name request timeout isServed =>
    s.onLease name fun lease => s.call (.await lease request timeout isServed .begin)
  | .mark name request =>
    s.onLease name fun lease =>
      match request with
      | .header => (s,.ok)
      | .segment index => s.noteServed lease index
  | .available name =>
    s.onLease name fun lease =>
      match lease.run with
      | none => (s,.noSession)
      | some run => (s,.ofResult .available (s.availableOf run))
  | .drop name =>
    match s.lease? name with
    | some lease => ((s.takeLease name).giveBack lease,.flag true)
    | none => (s,.flag false)
  | .progress none text => s.reportProgress ⟨0⟩ text
  | .progress (some launch) text =>
    match (s.runAt? launch).bind (s.playback.runs[·]?) with
    | some r => s.reportProgress r.job.run text
    | none => (s,.noRun)
  | .lastProgress launch => s.onRun launch id fun r => .progress r.progress
  | .exit launch how => s.onProcess launch fun p => { p with exit := some how }
  | .produce launch start count => s.onRun launch (·.produce start count) fun _ => .ok
  | .refuseSignals launch refuses => s.onProcess launch fun p => { p with refusesSignals := refuses }
  | .removeOutput launch => s.onRun launch Run.removeOutput fun r => .flag r.output.isSome
  | .script script => (s.withPlayback { s.playback with script },.ok)
  | .sleep millis => s.call (.sleep (s.clock.millis + millis))
  | .cleanUp => s.call (.cleanUp .collect)
  | .keepClean interval millis =>
    s.call (.keepClean interval (s.clock.millis + millis) (.begin s.clock interval))
  | .shutDown timeout => s.call (.shutDown timeout .begin)
  | .job launch => s.onRun launch id fun r => .job r.job
  | .change path change => s.changeFile path.toList change
  | .probePath path => s.call (.inspect (s.pathOf path) .stat)
  | .probe file =>
    s.callOf (locate file) fun locator => .inspect (s.server.catalogue.pathOf locator) .stat
  | .streams file index => s.callOf (locate file) fun locator => .streams locator index .stat
  | .keyframes file index => s.callOf (locate file) fun locator => .scan ⟨locator,index⟩ .stat
  | .modified file =>
    (s,.ofResult (fun f => .seconds f.modified) do
      s.server.catalogue.stat (s.server.catalogue.pathOf (← locate file)))
  | .forget path => (s.withCatalogue (s.server.catalogue.forget (s.pathOf path)),.ok)
  | .rendering file index representation =>
    s.callOf (do pure (← locate file,← RepresentationId.parse representation))
      fun (locator,id) => .resolve ⟨locator,index⟩ id .begin
  | .candidates file => s.callOf (locate file) fun locator => .survey locator .begin
  | .clearCache => s.onCache (·.clear)
  | .expireCache => s.onCache (·.dropExpired s.clock.nanos)
  | .dropCached file index =>
    match locate file with
    | .ok locator => s.onCache (·.dropStream ⟨locator,index⟩)
    | .error why => (s,.failure why)
  | .http c =>
    match s.requestOf? c with
    | some r => (s.noteTarget r).call (.exchange r .begin)
    | none => (s,.noRun)
  | .httpBehind name c =>
    match s.requestOf? c with
    | some r => ((s.noteTarget r).start (requestName name) (.exchange r .begin),.spawned)
    | none => (s,.noRun)
  | .httpJoin name =>
    match s.joined (requestName name) with
    | some (s,outcome) => s.conclude "" outcome
    | none => (s,.noLease)

end Scene
end Playout.Scenario
