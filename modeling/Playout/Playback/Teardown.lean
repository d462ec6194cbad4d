import Playout.Playback.State

/-!
# Teardown

What happens to a destroyed run, and when the processes of runs end: the process
is asked to terminate and waited for, the run is noted as exited whether that
succeeded or not, and its directory is removed if it can be.
-/
namespace Playout.Playback

namespace Teardown

def noteExit (s : State) (run : Nat) : State := s.onRun run fun r => { r with stage := .exited }

def ask (s : State) (process : Nat) : State :=
  { s with processes := s.processes.modify process fun p =>
      { p with terminations := p.terminations + 1 } }

/-- The state when the time that a process takes to terminate is over. -/
def finish (s : State) (process : Nat) : State :=
  { s with processes := s.processes.modify process Encoder.Process.terminate }

def turn (clock : Clock) (run : Nat) (phase : Teardown) (s : State) : Turn State Teardown Unit :=
  match phase with
  | .start =>
    match (s.runs[run]?).bind (·.process) with
    | none => .goesOn (noteExit s run) .clearing
    | some process =>
      let millis := (s.processes[process]?.map (·.stopMillis)).getD 0
      .goesOn (ask s process) (.terminating process (clock.millis + millis))
  | .terminating process wake =>
    if clock.millis < wake then .blocked (some wake)
    else .goesOn (noteExit (finish s process) run) .clearing
  | .clearing => .ends (s.removeOutput run) ()

end Teardown

/-- The state where a run is destroyed, and where its teardown begins unless it had been before. -/
def State.destroyed (s : State) (run : Nat) : State × Option Teardown :=
  if s.isDestroyed run then (s,none) else (s.destroy run,some .start)

namespace Retirement

/-- A turn of the retirement of an entry: it takes the lock, calls those that wait for a run, and tears down the run
    that was bound. The result is whether there was one. -/
def turn (clock : Clock) (entry : Nat) (phase : Retirement) (s : State) : Turn State Retirement Bool :=
  match phase with
  | .start => .goesOn (s.askLock entry) (.locking (s.nextTicket entry))
  | .locking ticket =>
    match s.locked? entry ticket with
    | none => .blocked none
    | some e =>
      let s := s.onEntry entry fun e =>
        { e with isRetired := true, run := none, calls := e.calls + 1, lock := e.lock.leave ticket }
      match e.run with
      | none => .ends s false
      | some run =>
        match s.destroyed run with
        | (s,some phase) => .goesOn s (.tearing run phase)
        | (s,none) => .ends s true
  | .tearing run phase => (phase.turn clock run s).within (.tearing run) fun s _ => .ends s true

end Retirement

namespace Task

def turn (clock : Clock) (task : Task) (s : State) : Turn State Task Bool :=
  match task with
  | .watch run process =>
    if (s.processes[process]?.map (·.hasExited)).getD true then .ends (Teardown.noteExit s run) false
    else .blocked none
  | .teardown run phase => (phase.turn clock run s).within (.teardown run) fun s _ => .ends s false
  | .retirement entry phase => (phase.turn clock entry s).within (.retirement entry) .ends
  | .over _ => .blocked none

end Task

/-- A turn of one of the tasks of a state, if it does not wait. -/
def State.taskTurn? (s : State) (clock : Clock) (number : Nat) : Option State := do
  let task ← s.tasks[number]?
  match task.turn clock s with
  | .blocked _ => none
  | .goesOn s next => some { s with tasks := s.tasks.set number next }
  | .ends s destroyed => some { s with tasks := s.tasks.set number (.over destroyed) }

end Playout.Playback
