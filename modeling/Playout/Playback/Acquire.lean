import Playout.Playback.Start

/-!
# Acquiring a session

A request for a segment finds or makes the entry of its key, holds it, and under
its lock decides whether the bound run can serve the request or a new one is
started. A request for the header never starts a run here: its lease stays
pending until it is bound.
-/
namespace Playout.Playback

/-- What a request asks for. -/
structure Demand where
  key : Key
  request : SegmentRequest
  rendering : Rendering
  source : String

/-- The hold of one request on a session. -/
structure Lease where
  entry : Nat
  run : Option Nat
  pending : Option Demand

def Lease.isPending (l : Lease) : Bool := l.run.isNone

def State.drop (s : State) (clock : Clock) (l : Lease) : State := s.letGo clock l.entry

/-- Where a request for a session waits. -/
inductive Acquire where
  | lookup
  | approaching (entry : Nat)
  | locking (entry ticket : Nat)
  | retrying
  | listing (entry ticket run : Nat)
  | listed (entry ticket run : Nat) (holds : Bool)
  | starting (entry ticket : Nat) (phase : Start)

namespace Acquire

def enter (clock : Clock) (key : Key) (s : State) : State × Nat :=
  match s.find? key with
  | some entry => (s,entry)
  | none =>
    let entry := s.entries.length
    ({ s with
        entries := s.entries ++ [{ lastAccess := clock.nanos }]
        table := s.table ++ [(key,entry)] },entry)

/-- Whether a run that goes on can serve a segment: it is not destroyed, its range holds the segment, and the segment is
    not before the last one that was asked for nor too far after it. -/
def suits (policy : Policy) (s : State) (e : Entry) (run index : Nat) : Bool :=
  match s.runs[run]? with
  | none => false
  | some r =>
    !r.isDestroyed && r.covers index && e.lastRequested ≤ index &&
      index ≤ min (e.lastRequested + policy.reuseWindow) max32

def order (demand : Demand) (entry first : Nat) : Order :=
  ⟨entry,demand.rendering,demand.source,first⟩

/-- The segment that a demand is for, the first for the header. -/
def index (demand : Demand) : Nat :=
  match demand.request with
  | .header => 0
  | .segment index => index

/-- The end of a request whose run is known. -/
def serve (s : State) (entry ticket run : Nat) : Turn State Acquire (Result Lease) :=
  .ends (s.unlock entry ticket) (.ok ⟨entry,some run,none⟩)

/-- The end of a request whose run goes on being used. -/
def reuse (demand : Demand) (s : State) (entry ticket run : Nat) : Turn State Acquire (Result Lease) :=
  serve (s.onEntry entry fun e => { e with lastRequested := index demand }) entry ticket run

def decide (policy : Policy) (clock : Clock) (demand : Demand) (s : State) (entry ticket : Nat)
    (e : Entry) : Turn State Acquire (Result Lease) :=
  if e.isRetired then .goesOn ((s.unlock entry ticket).letGo clock entry) retrying
  else
    match demand.request, s.liveRun? e, e.run with
    | .header, some run, _ => serve s entry ticket run
    | .header, none, _ => .ends (s.unlock entry ticket) (.ok ⟨entry,none,some demand⟩)
    | .segment index, _, some run =>
      if suits policy s e run index then
        if s.hasExited run then .goesOn s (listing entry ticket run)
        else reuse demand s entry ticket run
      else .goesOn s (starting entry ticket .begin)
    | .segment _, _, none => .goesOn s (starting entry ticket .begin)

def settle (clock : Clock) (entry ticket : Nat) (s : State) (started : Started) : Turn State Acquire (Result Lease) :=
  let s := (s.unlock entry ticket).replace started
  match started.outcome with
  | .ok run => .ends s (.ok ⟨entry,some run,none⟩)
  | .error why => .ends (s.letGo clock entry) (.error why)

def turn (policy : Policy) (clock : Clock) (demand : Demand) (phase : Acquire) (s : State) :
    Turn State Acquire (Result Lease) :=
  match phase with
  | lookup =>
    let (s,entry) := enter clock demand.key s
    .goesOn s (approaching entry)
  | approaching entry =>
    let s := s.hold entry
    .goesOn (s.askLock entry) (locking entry (s.nextTicket entry))
  | locking entry ticket =>
    match s.locked? entry ticket with
    | none => .blocked none
    | some e => decide policy clock demand s entry ticket e
  | retrying => .goesOn s lookup
  | listing entry ticket run =>
    let available := (s.runs[run]?).bind fun r => r.available? true
    .goesOn s (listed entry ticket run
      ((available.bind fun a => a.segment? (index demand)).isSome))
  | listed entry ticket run holds =>
    if holds then reuse demand s entry ticket run else .goesOn s (starting entry ticket .begin)
  | starting entry ticket phase =>
    (phase.turn policy (order demand entry (index demand)) s).within (starting entry ticket)
      (settle clock entry ticket)

end Acquire
end Playout.Playback
