import Playout.Playback.Acquire

/-!
# Binding a pending lease

A request for the header that found no run waits a while for a request of the
same session that says where to start. If none comes, a run is started where the
same player is on another representation of the stream, or at the beginning.
-/
namespace Playout.Playback

/-- Where the binding of a pending lease waits. -/
inductive Bind where
  | begin
  | approaching (deadline : Nat)
  /-- The lock is asked for; the calls for those that wait are counted from `calls`. -/
  | locking (deadline calls ticket : Nat)
  | waiting (deadline calls : Nat)
  | starting (ticket first : Nat) (phase : Start)

namespace Bind

/-- The greatest of some numbers. -/
def greatest? : List Int → Option Int
  | [] => none
  | x :: rest => some (rest.foldl max x)

/-- Where the player of a key is on another representation of the stream: the last tick that one of its other sessions
    with a free lock and a live run begins a requested segment at. -/
def position? (s : State) (key : Key) : Option Int :=
  greatest? <| s.table.filterMap fun (other,entry) => do
    guard (other.stream = key.stream ∧ other.player = key.player ∧ other.representation ≠ key.representation)
    let e ← s.entries[entry]?
    guard e.lock.isFree
    let r ← s.runs[← s.liveRun? e]?
    r.job.rendering.segmentStart? e.lastRequested

/-- The segment that a run without a request for a segment starts at. -/
def firstSegment (s : State) (demand : Demand) : Nat :=
  match position? s demand.key with
  | some tick => demand.rendering.segmentAt tick
  | none => 0

def decide (clock : Clock) (lease : Lease) (demand : Demand) (s : State)
    (deadline calls ticket : Nat) (e : Entry) : Turn State Bind (Result Lease) :=
  let free := s.unlock lease.entry ticket
  if e.isRetired then
    .ends (free.drop clock lease) (.error (.segmentNotFound SegmentRequest.header.text))
  else
    match s.liveRun? e with
    | some run => .ends free (.ok ⟨lease.entry,some run,none⟩)
    | none =>
      if deadline ≤ clock.millis then .goesOn s (starting ticket (firstSegment s demand) .begin)
      else .goesOn free (waiting deadline calls)

def settle (clock : Clock) (lease : Lease) (ticket : Nat) (s : State) (started : Started) :
    Turn State Bind (Result Lease) :=
  let s := (s.unlock lease.entry ticket).replace started
  match started.outcome with
  | .ok run => .ends s (.ok ⟨lease.entry,some run,none⟩)
  | .error why => .ends (s.drop clock lease) (.error why)

/-- How often those that wait for a run of an entry have been called. -/
def callsOf (s : State) (entry : Nat) : Nat := ((s.entries[entry]?).map (·.calls)).getD 0

/-- A turn of the binding of a lease; one that is not pending stays as it is. -/
def turn (policy : Policy) (clock : Clock) (lease : Lease) (phase : Bind) (s : State) :
    Turn State Bind (Result Lease) :=
  match lease.pending with
  | none => .ends s (.ok lease)
  | some demand =>
    match phase with
    | begin => .goesOn s (approaching (clock.millis + policy.handoff))
    | approaching deadline =>
      .goesOn (s.askLock lease.entry)
        (locking deadline (callsOf s lease.entry) (s.nextTicket lease.entry))
    | locking deadline calls ticket =>
      match s.locked? lease.entry ticket with
      | none => .blocked none
      | some e => decide clock lease demand s deadline calls ticket e
    | waiting deadline calls =>
      if callsOf s lease.entry = calls ∧ clock.millis < deadline then .blocked (some deadline)
      else .goesOn s (approaching deadline)
    | starting ticket first phase =>
      (phase.turn policy (Acquire.order demand lease.entry first) s).within (starting ticket first)
        (settle clock lease ticket)

end Bind
end Playout.Playback
