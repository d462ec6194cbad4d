import Playout.Config.Basic
import Playout.Playback.Teardown

/-!
# Starting a run

What a request does while it holds the lock of an entry and needs a run there:
the run that was bound is unbound, a directory is made, the encoder is started,
and the new run is bound. The run that was unbound is handed back, so that it is
torn down after the lock is free again.
-/
namespace Playout.Playback

/-- A run that is to be started for an entry. -/
structure Order where
  entry : Nat
  rendering : Rendering
  source : String
  /-- The first segment. -/
  first : Nat

/-- The segment after the last of a run: copies are cut short, so that a run never copies much more than what is
    watched. -/
def Order.last (o : Order) (policy : Policy) : Nat :=
  let count := o.rendering.segmentCount
  if o.rendering.representation.isCopy then min (min (o.first + policy.maxCopySegments) max32) count
  else count

def Order.job (o : Order) (policy : Policy) (number : Nat) : Encoder.Job :=
  let id : RunId := ⟨BitVec.ofNat 128 (number + 1)⟩
  { run := id
    source := o.source
    rendering := o.rendering
    first := o.first
    last := o.last policy
    directory := String.ofList (Path.join policy.outputRoot.toList ("session-" ++ id.text).toList)
    segmentSeconds := policy.segmentSeconds
    progressUrl := policy.callbackBase.map fun base =>
      base ++ "/internal/transcoder/" ++ id.text ++ "/progress" }

/-- The cause of failure where a directory is needed and a file is found. -/
def notADirectory : String := "Not a directory (os error 20)"

/-- The state where the process of a run is started, or why it is not. -/
def State.launch (s : State) (run : Nat) : Except Error State :=
  match s.script.failure with
  | some why => .error (.spawnFailed "ffmpeg" why)
  | none =>
    let process := s.processes.length
    .ok { (s.spawn (.watch run process)) with
      processes := s.processes ++ [s.script.process]
      launches := s.launches ++ [run]
      runs := s.runs.modify run fun r =>
        { r.produce 0 s.script.produces with process := some process, stage := .running } }

/-- The state where a run is bound to an entry and those that wait for one are called. -/
def State.bindRun (s : State) (entry run first : Nat) : State :=
  { s.onEntry entry fun e =>
      { e with run := some run, lastRequested := first, lastServed := none, calls := e.calls + 1 }
    with owners := (s.owners.filter (·.1 != run)) ++ [(run,entry)] }

def State.unbindRun (s : State) (entry : Nat) : State :=
  { s.onEntry entry fun e => { e with run := none }
    with owners :=
      match (s.entries[entry]?).bind (·.run) with
      | some run => s.owners.filter (·.1 != run)
      | none => s.owners }

def State.refuse (s : State) (run : Nat) : State :=
  (Teardown.noteExit s run).destroy run

/-- What starting a run leaves: the run that was unbound, and the new run or why there is none. -/
structure Started where
  replaced : Option Nat
  outcome : Result Nat

/-- Where the start of a run waits. -/
inductive Start where
  | begin
  | makeRoot (replaced : Option Nat)
  | makeDirectory (replaced : Option Nat)
  | launch (replaced : Option Nat) (run : Nat)
  | discard (replaced : Option Nat) (run : Nat) (why : Error)
  deriving DecidableEq, Repr

namespace Start

def turn (policy : Policy) (order : Order) (phase : Start) (s : State) : Turn State Start Started :=
  match phase with
  | begin => .goesOn (s.unbindRun order.entry) (makeRoot ((s.entries[order.entry]?).bind (·.run)))
  | makeRoot replaced =>
    if s.rootIsBlocked then
      .ends s ⟨replaced,.error (.directory policy.outputRoot notADirectory)⟩
    else .goesOn s (makeDirectory replaced)
  | makeDirectory replaced =>
    let run := s.runs.length
    let job := order.job policy run
    match s.directoryFailure with
    | some why => .ends s ⟨replaced,.error (.directory job.directory why)⟩
    | none => .goesOn { s with runs := s.runs ++ [{ job }] } (launch replaced run)
  | launch replaced run =>
    match s.launch run with
    | .ok s => .ends (s.bindRun order.entry run order.first) ⟨replaced,.ok run⟩
    | .error why => .goesOn (s.refuse run) (discard replaced run why)
  | discard replaced run why => .ends (s.removeOutput run) ⟨replaced,.error why⟩

end Start

/-- The state where the run that a start has unbound is torn down. -/
def State.replace (s : State) (started : Started) : State :=
  match started.replaced with
  | some run => s.destroyDetached run
  | none => s

end Playout.Playback
