import Playout.Playback.Start

/-!
# Idle sessions

Sessions that nobody holds and that have been idle for long enough leave the
table, and their runs are torn down one after another. They are collected first
and looked at again one by one, since they may have come into use meanwhile.
-/
namespace Playout.Playback

/-- Where a round of cleaning up waits. -/
inductive Cleanup where
  | collect
  | visiting (now : Nat) (rest : List (Key × Nat)) (removed : Nat)
  | unlisting (now : Nat) (key : Key) (entry : Nat) (run : Option Nat) (rest : List (Key × Nat))
    (removed : Nat)
  | tearing (now run : Nat) (phase : Teardown) (rest : List (Key × Nat)) (removed : Nat)

namespace Cleanup

def nanosPerMilli : Nat := 1000000

def isIdle (policy : Policy) (now : Nat) (e : Entry) : Bool :=
  e.references == 0 && policy.idleTimeout * nanosPerMilli ≤ e.idleNanos now

/-- A turn of a round of cleaning up. The result is the number of sessions removed. -/
def turn (policy : Policy) (clock : Clock) (phase : Cleanup) (s : State) : Turn State Cleanup Nat :=
  match phase with
  | collect =>
    let idle := s.table.filter fun (_,entry) =>
      match s.entries[entry]? with
      | some e => isIdle policy clock.nanos e
      | none => false
    .goesOn s (visiting clock.nanos idle 0)
  | visiting _ [] removed => .ends s removed
  | visiting now ((key,entry) :: rest) removed =>
    match s.entries[entry]? with
    | none => .goesOn s (visiting now rest removed)
    | some e =>
      if e.lock.isFree && isIdle policy now e then
        .goesOn (s.onEntry entry fun e => { e with isRetired := true, run := none })
          (unlisting now key entry e.run rest removed)
      else .goesOn s (visiting now rest removed)
  | unlisting now key entry run rest removed =>
    let s := { s with table := s.table.filter (· ≠ (key,entry)) }
    match run with
    | none => .goesOn s (visiting now rest (removed + 1))
    | some run =>
      let s := { s with owners := s.owners.filter (·.1 != run) }
      match s.destroyed run with
      | (s,some phase) => .goesOn s (tearing now run phase rest (removed + 1))
      | (s,none) => .goesOn s (visiting now rest (removed + 1))
  | tearing now run phase rest removed =>
    (phase.turn clock run s).within (fun phase => tearing now run phase rest removed) fun s _ =>
      .goesOn s (visiting now rest removed)

end Cleanup

/-- Where the repeated cleaning up waits: for the time of its next round, or within a round. -/
inductive Cleaning where
  | waiting (due : Nat)
  | cleaning (next : Nat) (phase : Cleanup)

namespace Cleaning

/-- The time by which a round may be late without any being left out, in milliseconds. -/
def slack : Nat := 5

/-- When the round after one is due that was due itself at `due` and begins now: rounds that were missed meanwhile are
    left out. -/
def next (interval due now : Nat) : Nat :=
  if now ≤ due + slack then due + interval else now + interval - (now - due) % interval

/-- The first phase: a round begins at once. -/
def begin (clock : Clock) (interval : Nat) : Cleaning :=
  .cleaning (next interval clock.millis clock.millis) .collect

/-- A turn of the repeated cleaning up, which is cancelled at a time, but not within a round. -/
def turn (policy : Policy) (clock : Clock) (interval cancel : Nat) (phase : Cleaning) (s : State) :
    Turn State Cleaning Unit :=
  match phase with
  | waiting due =>
    if cancel ≤ clock.millis then .ends s ()
    else if due ≤ clock.millis then .goesOn s (cleaning (next interval due clock.millis) .collect)
    else .blocked (some (min due cancel))
  | cleaning next phase =>
    (phase.turn policy clock s).within (cleaning next) fun s _ => .goesOn s (waiting next)

end Cleaning
end Playout.Playback
