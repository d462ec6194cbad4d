import Mathlib.Data.Multiset.AddSub
import Mathlib.Logic.Relation
import Playout.Playback.Bind
import Playout.Playback.Feedback
import Playout.Playback.Idle
import Playout.Playback.Served

/-!
Traffic on the session table: any number of calls at once, each waiting at one
of its phases. A step is a turn of one call or of one task of the table, the
beginning of a call, the return of a lease, or something that happens around the
table: a process ends, files change, time passes. Every order of such steps is a
history (`Reachable`).
-/
namespace Playout.Playback

/-- A lease that was given out, with the demand that it answers. -/
structure Grant where
  demand : Demand
  lease : Lease

/-- A call on the table, with where it waits. -/
inductive Call where
  | acquire (demand : Demand) (phase : Acquire)
  | bind (grant : Grant) (phase : Bind)
  | mark (lease : Lease) (index : Nat) (highest : Option Nat) (phase : Served)
  | report (id : RunId) (report : Encoder.Report) (phase : Feedback)
  | cleanUp (phase : Cleanup)

namespace Call

/-- The end of a call that came to a lease, or to none. -/
def granted (demand : Demand) (s : State) : Result Lease → Turn State Call (Option Grant)
  | .ok lease => .ends s (some ⟨demand,lease⟩)
  | .error _ => .ends s none

/-- A turn of a call. The result is the lease that it gives out, if it does. -/
def turn (policy : Policy) (clock : Clock) (call : Call) (s : State) : Turn State Call (Option Grant) :=
  match call with
  | acquire demand phase => (phase.turn policy clock demand s).within (acquire demand) (granted demand)
  | bind grant phase => (phase.turn policy clock grant.lease s).within (bind grant) (granted grant.demand)
  | mark lease index highest phase =>
    (phase.turn policy lease index highest s).within (mark lease index highest) fun s _ => .ends s none
  | report id found phase =>
    (phase.turn policy id found s).within (report id found) fun s _ => .ends s none
  | cleanUp phase => (phase.turn policy clock s).within cleanUp fun s _ => .ends s none

/-- What a call may start a run for. -/
def demand? : Call → Option Demand
  | acquire demand _ => some demand
  | bind grant _ => grant.lease.pending
  | mark .. | report .. | cleanUp _ => none

end Call

/-- Something that happens around the table. -/
inductive Event where
  /-- A process ends. -/
  | exit (process : Nat) (how : Encoder.Exit)
  /-- A process takes no signals any more, or takes them again. -/
  | refuseSignals (process : Nat) (refuses : Bool)
  /-- The directory of a run holds other files now, or is not there. -/
  | files (run : Nat) (output : Option (List OutputFile))
  /-- The processes that are started next do something else. -/
  | script (script : Encoder.Script)
  /-- The parent of the output directories can be made, or not. -/
  | blockRoot (isBlocked : Bool)
  /-- The directories of runs can be made, or not. -/
  | failDirectories (why : Option String)
  /-- The directories of runs can be removed, or not. -/
  | failRemovals (fails : Bool)

/-- The state after something has happened. -/
def Event.apply (s : State) : Event → State
  | exit process how => { s with processes := s.processes.modify process fun p => { p with exit := some how } }
  | refuseSignals process refuses =>
    { s with processes := s.processes.modify process fun p => { p with refusesSignals := refuses } }
  | files run output => s.onRun run fun r => { r with output := output }
  | script next => { s with script := next }
  | blockRoot isBlocked => { s with rootIsBlocked := isBlocked }
  | failDirectories why => { s with directoryFailure := why }
  | failRemovals fails => { s with removalFails := fails }

/-- What players may ask for, and which segments may be marked as served for a demand. -/
structure Conduct where
  asks : Demand → Prop
  marks : Demand → Nat → Prop

/-- Players that do what they like. -/
def Conduct.free : Conduct := ⟨fun _ => True,fun _ _ => True⟩

/-- Players that see one rendering for each session. -/
def Conduct.withRendering (rendering : Key → Rendering) : Conduct :=
  ⟨fun demand => demand.rendering = rendering demand.key,fun _ _ => True⟩

/-- The table with the calls on it and the leases that are out. -/
structure Traffic where
  state : State := {}
  clock : Clock := ⟨0,0⟩
  calls : Multiset Call := 0
  grants : Multiset Grant := 0
  /-- The session that each run was made for, in the order of the runs. -/
  makers : List Key := []

namespace Traffic

/-- The sessions of the runs when a call has taken the table to a state. -/
def makersAfter (w : Traffic) (call : Call) (s : State) : List Key :=
  w.makers ++ (call.demand?.map fun d => List.replicate (s.runs.length - w.state.runs.length) d.key).getD []

/-- One step of the traffic. -/
inductive Step (policy : Policy) (conduct : Conduct) : Traffic → Traffic → Prop
  | ask {w : Traffic} (demand : Demand) (asked : conduct.asks demand) :
      Step policy conduct w { w with calls := .acquire demand .lookup ::ₘ w.calls }
  | bind {w : Traffic} (grant : Grant) (grants : Multiset Grant) (held : w.grants = grant ::ₘ grants) :
      Step policy conduct w { w with grants := grants, calls := .bind grant .begin ::ₘ w.calls }
  | drop {w : Traffic} (grant : Grant) (grants : Multiset Grant) (held : w.grants = grant ::ₘ grants) :
      Step policy conduct w { w with grants := grants, state := w.state.drop w.clock grant.lease }
  | mark {w : Traffic} (grant : Grant) (held : grant ∈ w.grants) (index : Nat) (highest : Option Nat)
      (marked : conduct.marks grant.demand index) :
      Step policy conduct w { w with calls := .mark grant.lease index highest .begin ::ₘ w.calls }
  | report {w : Traffic} (run : RunId) (report : Encoder.Report) :
      Step policy conduct w { w with calls := .report run report .lookup ::ₘ w.calls }
  | cleanUp {w : Traffic} : Step policy conduct w { w with calls := .cleanUp .collect ::ₘ w.calls }
  | goesOn {w : Traffic} (call : Call) (calls : Multiset Call) (going : w.calls = call ::ₘ calls)
      {s : State} {next : Call} (turned : call.turn policy w.clock w.state = .goesOn s next) :
      Step policy conduct w
        { w with state := s, calls := next ::ₘ calls, makers := w.makersAfter call s }
  | ends {w : Traffic} (call : Call) (calls : Multiset Call) (going : w.calls = call ::ₘ calls)
      {s : State} {grant : Option Grant} (turned : call.turn policy w.clock w.state = .ends s grant) :
      Step policy conduct w
        { w with
          state := s, calls := calls, grants := (grant.elim 0 fun g => {g}) + w.grants,
          makers := w.makersAfter call s }
  | task {w : Traffic} (number : Nat) {s : State} (turned : w.state.taskTurn? w.clock number = some s) :
      Step policy conduct w { w with state := s }
  | happen {w : Traffic} (event : Event) : Step policy conduct w { w with state := event.apply w.state }
  | wait {w : Traffic} (clock : Clock) (millis : w.clock.millis ≤ clock.millis)
      (nanos : w.clock.nanos ≤ clock.nanos) : Step policy conduct w { w with clock := clock }

/-- Some history leads from the empty table to the traffic. -/
def Reachable (policy : Policy) (conduct : Conduct) (w : Traffic) : Prop :=
  Relation.ReflTransGen (Step policy conduct) {} w

end Traffic
end Playout.Playback
