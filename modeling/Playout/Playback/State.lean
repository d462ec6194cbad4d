import Playout.Locator
import Playout.Playback.Lock
import Playout.Playback.Request
import Playout.Run.Available
import Playout.Turn

/-!
# The session table

A playback session is one player watching one representation of one stream. Its
entry in the table binds it to at most one run at a time, counts the requests
that hold it, and remembers what was asked for and what was served. Entries and
runs are numbered in the order in which they come about and never forgotten;
which of them count is said by the table and by the marks that they carry.
-/
namespace Playout.Playback

/-- One player watching one representation of one stream. -/
structure Key where
  stream : StreamKey
  representation : RepresentationId
  player : PlayerId
  deriving DecidableEq, Inhabited

def Key.text (k : Key) : String :=
  k.stream.text ++ "/" ++ k.representation.text ++ "/" ++ k.player.text

/-- What is kept about one playback session. -/
structure Entry where
  /-- Whether the entry has left the table for good. -/
  isRetired : Bool := false
  run : Option Nat := none
  /-- The last segment that was asked for since the run was bound. -/
  lastRequested : Nat := 0
  /-- The last segment of the run that was served. -/
  lastServed : Option Nat := none
  /-- The number of requests that hold the entry. -/
  references : Nat := 0
  /-- When the entry was made or a request let go of it, in nanoseconds. -/
  lastAccess : Nat
  lock : Lock := .unused
  /-- How often those that wait for a run have been called. -/
  calls : Nat := 0
  deriving DecidableEq, Repr, Inhabited

/-- How long nobody has used an entry, in nanoseconds. -/
def Entry.idleNanos (e : Entry) (now : Nat) : Nat := now - e.lastAccess

/-- Where the teardown of a run waits. -/
inductive Teardown where
  | start
  | terminating (process wake : Nat)
  | clearing
  deriving DecidableEq, Repr, Inhabited

/-- Where the retirement of an entry waits. -/
inductive Retirement where
  | start
  | locking (ticket : Nat)
  | tearing (run : Nat) (phase : Teardown)
  deriving DecidableEq, Repr, Inhabited

/-- What goes on without a request waiting for it. -/
inductive Task where
  /-- The end of a process is noted in its run. -/
  | watch (run process : Nat)
  | teardown (run : Nat) (phase : Teardown)
  | retirement (entry : Nat) (phase : Retirement)
  /-- Nothing any more; whether a run was torn down for an entry. -/
  | over (destroyed : Bool)
  deriving DecidableEq, Repr, Inhabited

/-- The table with everything that it refers to. -/
structure State where
  entries : List Entry := []
  table : List (Key × Nat) := []
  /-- The entry that each bound run belongs to. -/
  owners : List (Nat × Nat) := []
  runs : List Run := []
  processes : List Encoder.Process := []
  tasks : List Task := []
  script : Encoder.Script := {}
  /-- The runs whose process was started, in order. -/
  launches : List Nat := []
  /-- Whether the parent of the output directories cannot be made, because a file is there. -/
  rootIsBlocked : Bool := false
  /-- Why no directory of a run can be made in that parent, if none can. -/
  directoryFailure : Option String := none
  /-- Whether directories of runs cannot be removed. -/
  removalFails : Bool := false
  deriving Inhabited

namespace State

/-! ### Entries -/

def onEntry (s : State) (entry : Nat) (f : Entry → Entry) : State :=
  { s with entries := s.entries.modify entry f }

def find? (s : State) (key : Key) : Option Nat := (s.table.find? (·.1 == key)).map (·.2)

def hold (s : State) (entry : Nat) : State :=
  s.onEntry entry fun e => { e with references := e.references + 1 }

def letGo (s : State) (clock : Clock) (entry : Nat) : State :=
  s.onEntry entry fun e => { e with references := e.references - 1, lastAccess := clock.nanos }

def nextTicket (s : State) (entry : Nat) : Nat :=
  match s.entries[entry]? with
  | some e => e.lock.next
  | none => 0

/-- The state where the lock of an entry has given out one more ticket. -/
def askLock (s : State) (entry : Nat) : State :=
  s.onEntry entry fun e => { e with lock := e.lock.request }

def unlock (s : State) (entry ticket : Nat) : State :=
  s.onEntry entry fun e => { e with lock := e.lock.leave ticket }

def locked? (s : State) (entry ticket : Nat) : Option Entry :=
  s.entries[entry]?.filter fun e => e.lock.isHeldBy ticket

/-! ### Runs -/

def onRun (s : State) (run : Nat) (f : Run → Run) : State :=
  { s with runs := s.runs.modify run f }

/-- The state where the directory of a run is removed, unless that fails. -/
def removeOutput (s : State) (run : Nat) : State :=
  s.onRun run fun r => if s.removalFails then r else r.removeOutput

def runNumber? (s : State) (id : RunId) : Option Nat := s.runs.findIdx? (·.job.run == id)

def processOf? (s : State) (r : Run) : Option Encoder.Process := r.process.bind (s.processes[·]?)

def stageOf (s : State) (r : Run) : Stage := r.shown ((s.processOf? r).bind (·.exit))

def hasExited (s : State) (run : Nat) : Bool :=
  match s.runs[run]? with
  | some r => s.stageOf r == .exited
  | none => true

def isThrottled (s : State) (run : Nat) : Bool :=
  match s.runs[run]? with
  | some r => s.stageOf r == .throttled
  | none => false

def isDestroyed (s : State) (run : Nat) : Bool :=
  match s.runs[run]? with
  | some r => r.isDestroyed
  | none => true

/-- The run of an entry, unless it is destroyed. -/
def liveRun? (s : State) (e : Entry) : Option Nat := e.run.filter fun run => !s.isDestroyed run

/-- The state after a signal to a process, if the signal arrives. -/
def signal? (s : State) (process : Option Nat) (pause : Bool) : Option State := do
  let number ← process
  let p ← (← s.processes[number]?).signal? pause
  some { s with processes := s.processes.set number p }

/-- The state after a signal to the process of a run that is at a stage: if the signal arrives, the run comes to another
    stage. Also whether the run is at that other stage then. -/
def signalRun (s : State) (run : Nat) (pause : Bool) (source target : Stage) : State × Bool :=
  match s.runs[run]? with
  | none => (s,false)
  | some r =>
    if r.stage = source then
      match s.signal? r.process pause with
      | some s => (s.onRun run fun r => { r with stage := target },true)
      | none => (s,false)
    else (s,r.stage == target)

/-- Pauses a running run, and says whether it is throttled then. -/
def throttle (s : State) (run : Nat) : State × Bool := s.signalRun run true .running .throttled

/-- Resumes a throttled run, and says whether it is running then. -/
def resume (s : State) (run : Nat) : State × Bool := s.signalRun run false .throttled .running

/-! ### Tasks -/

def spawn (s : State) (task : Task) : State := { s with tasks := s.tasks ++ [task] }

def destroy (s : State) (run : Nat) : State := s.onRun run Run.destroy

/-- The state where a run is destroyed, with its teardown going on by itself. -/
def destroyDetached (s : State) (run : Nat) : State :=
  if s.isDestroyed run then s else (s.destroy run).spawn (.teardown run .start)

end State
end Playout.Playback
