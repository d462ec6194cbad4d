import Playout.Playback.Acquire

/-!
# Waiting for a segment

A run is looked at again and again until the file is there that a request asks
for, its time is over, or the run is destroyed. Each look that finds nothing
resumes a throttled run.
-/
namespace Playout.Playback

/-- The pause after the first look, in milliseconds. -/
def firstPause : Nat := 100

/-- The longest pause between two looks, in milliseconds. -/
def longestPause : Nat := 250

/-- A file that is complete. -/
structure ReadyFile where
  name : String
  run : Nat
  /-- The first segment of the run. -/
  first : Nat
  available : Available

/-- Where a request that waits for a file waits. -/
inductive Await where
  | begin
  | looking (deadline pause : Nat)
  | listing (deadline pause : Nat) (hasExited : Bool)
  | listed (deadline pause : Nat) (available : Option Available)
  | sleeping (wake deadline pause : Nat)

def noSuchFile : String := "No such file or directory (os error 2)"

namespace Await

def file? (request : SegmentRequest) (a : Available) : Option String :=
  match request with
  | .header => a.header
  | .segment index => a.segment? index

def decide (clock : Clock) (run : Nat) (request : SegmentRequest) (s : State) (deadline pause : Nat)
    (available : Option Available) : Turn State Await (Result ReadyFile) :=
  match available with
  | none =>
    if s.isDestroyed run then .ends s (.error (.segmentNotFound request.text))
    else
      let path := ((s.runs[run]?).map (·.job.directory)).getD ""
      .ends s (.error (.directory path noSuchFile))
  | some a =>
    match file? request a with
    | some name =>
      .ends s (.ok ⟨name,run,((s.runs[run]?).map (·.job.first)).getD 0,a⟩)
    | none =>
      let s := if s.isThrottled run then (s.resume run).1 else s
      if deadline ≤ clock.millis then .ends s (.error (.segmentTimeout request.text))
      else .goesOn s (sleeping (min (clock.millis + pause) deadline) deadline pause)

/-- A turn of a request that waits for a file of the run of its lease, for `timeout` milliseconds. -/
def turn (clock : Clock) (lease : Lease) (request : SegmentRequest) (timeout : Nat) (phase : Await)
    (s : State) : Turn State Await (Result ReadyFile) :=
  match lease.run with
  | none =>
    .ends s (.error (.internal ("waiting for segment " ++ request.text ++ " on an unbound lease")))
  | some run =>
    match phase with
    | begin => .goesOn s (looking (clock.millis + timeout) firstPause)
    | looking deadline pause =>
      if s.isDestroyed run then .ends s (.error (.segmentNotFound request.text))
      else .goesOn s (listing deadline pause (s.hasExited run))
    | listing deadline pause hasExited =>
      .goesOn s (listed deadline pause ((s.runs[run]?).bind fun r => r.available? hasExited))
    | listed deadline pause available => decide clock run request s deadline pause available
    | sleeping wake deadline pause =>
      if clock.millis < wake then .blocked (some wake)
      else .goesOn s (looking deadline (min (2 * pause) longestPause))

end Await
end Playout.Playback
