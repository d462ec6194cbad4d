import Playout.Playback.Start
import Playout.Scenario.Scene

/-!
# A single run

A scenario of one run that is created and then acted upon directly, without a
session.
-/
namespace Playout.Scenario.SingleRun
open Playback (State Teardown)

inductive Action where
  | start
  | script (script : Encoder.Script)
  | throttle
  | resume
  | write (name : String)
  | unlink (name : String)
  | removeOutput
  | list
  | exit (how : Encoder.Exit)
  | refuseSignals (refuses : Bool)
  | destroy
  | destroyDetached
  | sleep (millis : Nat)
  | progress (text : List UInt8)
  | covers (index : Nat)

/-- What is seen of the run. -/
structure View where
  before : Playout.Stage
  /-- The stage a millisecond later. -/
  stage : Playout.Stage
  isDestroyed : Bool
  process : Option Encoder.Process
  hasDirectory : Bool

def run : Nat := 0

/-- Where an action waits. -/
inductive Doing where
  | destroying (phase : Teardown)
  | sleeping (wake : Nat)

/-- A state with its clock. -/
structure Timeline where
  clock : Clock
  state : State

def Doing.turn (clock : Clock) (doing : Doing) (s : State) : Turn State Doing Unit :=
  match doing with
  | destroying phase => (phase.turn clock run s).within destroying fun s _ => .ends s ()
  | sleeping wake => if clock.millis < wake then .blocked (some wake) else .ends s ()

/-- A turn of each task of a state; whether anything went on, and the next time that is waited for. -/
def turnTasks (clock : Clock) (s : State) : State × Bool × Option Nat :=
  (List.range s.tasks.length).foldl (fun (s,moved,wake) number =>
    match s.taskTurn? clock number with
    | some s => (s,true,wake)
    | none =>
      match (s.tasks[number]?).map (Playback.Task.turn clock · s) with
      | some (.blocked other) => (s,moved,Scene.earlier wake other)
      | _ => (s,moved,wake)) (s,false,none)

/-- The state when an action has come to its end, or after a number of rounds. -/
def drive (t : Timeline) (doing : Doing) : Nat → Timeline
  | 0 => t
  | rounds + 1 =>
    match doing.turn t.clock t.state with
    | .ends state () => { t with state }
    | .goesOn state next =>
      let (state,_,_) := turnTasks t.clock state
      drive { t with state } next rounds
    | .blocked wake =>
      let (state,moved,other) := turnTasks t.clock t.state
      if moved then drive { t with state } doing rounds
      else
        match Scene.earlier wake other with
        | some millis => drive { t with clock := { t.clock with millis } } doing rounds
        | none => t

def await (t : Timeline) (doing : Doing) : Timeline := drive t doing Scene.enoughRounds

def stage (s : State) : Playout.Stage := ((s.runs[run]?).map s.stageOf).getD .exited

/-- The state with the process that was started last changed. -/
def onProcess (s : State) (f : Encoder.Process → Encoder.Process) : State :=
  { s with processes := s.processes.modify (s.processes.length - 1) f }

/-- The state where the run is started, or why it did not start. -/
def start (s : State) : State × Answer :=
  match s.launch run with
  | .ok s => (s,.ok)
  | .error why => (Teardown.noteExit s run,.failure why)

def available (s : State) : Result Available :=
  match s.runs[run]? with
  | none => .ok .none
  | some r =>
    match r.available? (s.hasExited run) with
    | some a => .ok a
    | none => .error (.directory r.job.directory "No such file or directory (os error 2)")

def perform (t : Timeline) (action : Action) : Timeline × Answer :=
  let s := t.state
  let hasDirectory := (s.runs[run]?).any fun r => r.output.isSome
  match action with
  | .start =>
    let (state,answer) := start s
    ({ t with state },answer)
  | .script script => ({ t with state := { s with script } },.ok)
  | .throttle => ({ t with state := (s.throttle run).1 },.flag (s.throttle run).2)
  | .resume => ({ t with state := (s.resume run).1 },.flag (s.resume run).2)
  | .write name =>
    let isName := hasDirectory && !name.toList.contains '/'
    ({ t with state := if isName then s.onRun run (·.write name []) else s },.flag isName)
  | .unlink name =>
    ({ t with state := s.onRun run (·.unlink name) },
      .flag ((s.runs[run]?).any fun r => (r.file? name).isSome))
  | .removeOutput => ({ t with state := s.onRun run Run.removeOutput },.flag hasDirectory)
  | .list => (t,.ofResult .available (available s))
  | .exit how =>
    ({ t with state := onProcess s fun p => { p with exit := some how } },.count s.processes.length)
  | .refuseSignals refuses =>
    ({ t with state := onProcess s fun p => { p with refusesSignals := refuses } },
      .count s.processes.length)
  | .destroy =>
    match s.destroyed run with
    | (state,some phase) => (await { t with state } (.destroying phase),.ok)
    | (state,none) => ({ t with state },.ok)
  | .destroyDetached => ({ t with state := s.destroyDetached run },.ok)
  | .sleep millis => (await t (.sleeping (t.clock.millis + millis)),.ok)
  | .progress text =>
    let reports := (Encoder.ProgressParser.start.push text).2
    let state := reports.foldl (fun s report =>
      s.onRun run fun r => { r with progress := some report }) s
    ({ t with state },.progress ((state.runs[run]?).bind (·.progress)))
  | .covers index => (t,.flag ((s.runs[run]?).any (·.covers index)))

/-- The answers of some actions, with what is seen after each of them. -/
def play (t : Timeline) : List Action → List (Answer × View)
  | [] => []
  | action :: rest =>
    let (t,answer) := perform t action
    let before := stage t.state
    let t := await t (.sleeping (t.clock.millis + 1))
    let r := t.state.runs[run]?
    let view : View :=
      { before
        stage := stage t.state
        isDestroyed := r.any (·.isDestroyed)
        process := t.state.processes.getLast?
        hasDirectory := r.any fun r => r.output.isSome }
    (answer,view) :: play t rest

/-- The scenario of a run with a job: it is created, unless the parent of its directory cannot be made, and acted upon.
    -/
def ofJob (job : Encoder.Job) (script : Encoder.Script) (rootIsBlocked : Bool) : Result Timeline :=
  if rootIsBlocked then .error (.directory job.directory "File exists (os error 17)")
  else .ok ⟨⟨0,0⟩,{ runs := [{ job }], script }⟩

end Playout.Scenario.SingleRun
