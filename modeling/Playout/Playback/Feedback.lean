import Playout.Playback.Start

/-!
# Progress of runs

A report of the encoder is recorded in its run, if the run is bound, and the run
is throttled when it is far enough ahead of the player.
-/
namespace Playout.Playback

/-- Where the handling of a report waits. -/
inductive Feedback where
  | lookup
  | locking (run entry ticket : Nat)
  | recording (run : Nat) (lastServed : Option Nat)
  | listing (run : Nat) (lastServed : Option Nat)
  | listed (run : Nat) (lastServed : Option Nat) (available : Option Available)

namespace Feedback

/-- A turn of the handling of a report of a run. The result is whether the run is throttled by it. -/
def turn (policy : Policy) (id : RunId) (report : Encoder.Report) (phase : Feedback) (s : State) :
    Turn State Feedback Bool :=
  match phase with
  | lookup =>
    match (s.runNumber? id).bind fun run => s.owners.find? (·.1 == run) with
    | none => .ends s false
    | some (run,entry) => .goesOn (s.askLock entry) (locking run entry (s.nextTicket entry))
  | locking run entry ticket =>
    match s.locked? entry ticket with
    | none => .blocked none
    | some e =>
      let s := s.unlock entry ticket
      if e.run = some run then .goesOn s (recording run e.lastServed) else .ends s false
  | recording run lastServed =>
    let s := s.onRun run fun r => { r with progress := some report }
    if report.isLast || s.hasExited run then .ends s false else .goesOn s (listing run lastServed)
  | listing run lastServed =>
    .goesOn s (listed run lastServed ((s.runs[run]?).bind fun r => r.available? false))
  | listed run lastServed available =>
    match available, s.runs[run]? with
    | some a, some r =>
      if shouldThrottle a.highest lastServed r.job.first policy.throttleAhead then
        let (s,throttled) := s.throttle run
        .ends s throttled
      else .ends s false
    | _, _ => .ends s false

end Feedback
end Playout.Playback
