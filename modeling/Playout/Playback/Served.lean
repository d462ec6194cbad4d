import Playout.Playback.Acquire

/-!
# Served segments

That a segment was served is noted in the entry, if the run that served it is
still bound there, and a throttled run is resumed once the player has caught up
with it.
-/
namespace Playout.Playback

/-- Where the note that a segment was served waits. -/
inductive Served where
  | begin
  | locking (ticket : Nat)
  | noted (lastServed : Nat)

namespace Served

/-- The last segment of the run that counts as served when one more is: none after the last one that was asked for. -/
def latest (e : Entry) (index : Nat) : Nat :=
  let served := min index e.lastRequested
  match e.lastServed with
  | some last => max last served
  | none => served

/-- A turn of the note that a segment was served through a lease, with what was listed of its run. -/
def turn (policy : Policy) (lease : Lease) (index : Nat) (highest : Option Nat) (phase : Served)
    (s : State) : Turn State Served Unit :=
  match lease.run with
  | none => .ends s ()
  | some run =>
    match phase with
    | begin => .goesOn (s.askLock lease.entry) (locking (s.nextTicket lease.entry))
    | locking ticket =>
      match s.locked? lease.entry ticket with
      | none => .blocked none
      | some e =>
        let s := s.unlock lease.entry ticket
        if e.run = some run then
          .goesOn (s.onEntry lease.entry fun e => { e with lastServed := some (latest e index) })
            (noted (latest e index))
        else .ends s ()
    | noted lastServed =>
      let first := ((s.runs[run]?).map (·.job.first)).getD 0
      if s.isThrottled run && !shouldThrottle highest (some lastServed) first policy.throttleAhead
      then .ends (s.resume run).1 ()
      else .ends s ()

end Served
end Playout.Playback
