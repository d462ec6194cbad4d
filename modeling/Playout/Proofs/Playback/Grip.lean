import Playout.Proofs.Playback.Skeleton

/-!
What a call has in its hands while it waits: the entry that counts it, its place
in the queue of a lock, and runs that no entry is bound to. A turn of a call has
one of few effects on the state and on what the call has in its hands (`Effect`);
everything that holds in all histories is derived from these effects.
-/
namespace Playout.Playback

/-- How far a call is with an entry. -/
inductive Hold where
  | free
  /-- It has a ticket for the lock. -/
  | waits (entry ticket : Nat)
  /-- It holds the lock of an entry that has not left the table. -/
  | inside (entry ticket : Nat)
  /-- It holds the lock, and has unbound the run of the entry. -/
  | emptied (entry ticket : Nat)
  /-- It has retired the entry of a key, which is still in the table. -/
  | retires (key : Key) (entry : Nat)
  deriving DecidableEq

namespace Hold

/-- The ticket that a call has, with the entry that it is for. -/
def ticket? : Hold → Option (Nat × Nat)
  | waits entry ticket | inside entry ticket | emptied entry ticket => some (entry,ticket)
  | free | retires .. => none

/-- The entry whose lock a call is known to hold, with its ticket. -/
def entered? : Hold → Option (Nat × Nat)
  | inside entry ticket | emptied entry ticket => some (entry,ticket)
  | free | waits .. | retires .. => none

theorem ticket?_of_entered? {h : Hold} {p : Nat × Nat} (entered : h.entered? = some p) : h.ticket? = some p := by
  cases h with
  | inside entry ticket => exact entered
  | emptied entry ticket => exact entered
  | _ => cases entered

end Hold

/-- What a call or a lease has in its hands. -/
structure Grip where
  /-- What it may start a run for. -/
  demand : Option Demand := none
  /-- The entry that it was given. -/
  entry : Option Nat := none
  hold : Hold := .free
  /-- A run that it has made and not bound yet. -/
  fresh : Option Nat := none
  /-- A run that it has unbound and not destroyed yet. -/
  taken : Option Nat := none
  /-- The entries that it is going to look at, with their keys. -/
  visits : List (Key × Nat) := []

namespace Grip

/-- The grip of what was asked for and was given an entry. -/
def of (demand : Demand) (entry : Nat) : Grip := { demand := some demand, entry := some entry }

/-- Whether a grip is another one that may have let go of its demand, its entry and its visits. -/
structure Covers (g g' : Grip) : Prop where
  demand : g'.demand = g.demand ∨ g'.demand = none
  entry : g'.entry = g.entry ∨ g'.entry = none
  hold : g'.hold = g.hold
  fresh : g'.fresh = g.fresh
  taken : g'.taken = g.taken
  visits : g'.visits ⊆ g.visits

end Grip

/-- The state where an entry was retired. -/
def State.retire (s : State) (entry : Nat) : State :=
  s.onEntry entry fun e => { e with isRetired := true, run := none }

/-- The state where an entry was taken out of the table, and the run that was bound to it is destroyed. -/
def State.unlist (s : State) (key : Key) (entry : Nat) : Option Nat → State
  | none => { s with table := s.table.filter (· ≠ (key,entry)) }
  | some run =>
    (State.destroyed { s with
      table := s.table.filter (· ≠ (key,entry)), owners := s.owners.filter (·.1 != run) } run).1

/-- The moves that a call can make, with the sessions of the runs that are made by it. -/
inductive Move (policy : Policy) (clock : Clock) : State → Grip → State → Grip → List Key → Prop
  /-- Runs and processes go on. -/
  | rests {s t : State} {g : Grip} (same : t.skeleton = s.skeleton) : Move policy clock s g t g []
  /-- The key of a demand gets an entry. -/
  | enters {s : State} (demand : Demand) :
      Move policy clock s { demand := some demand } (Acquire.enter clock demand.key s).1
        (Grip.of demand (Acquire.enter clock demand.key s).2) []
  /-- The lock of a known entry is asked for. -/
  | asks {s t : State} {g : Grip} {entry : Nat} (idle : g.hold = .free)
      (known : g.entry = some entry ∨ ∃ run, (run,entry) ∈ s.owners) (same : t.skeleton = s.skeleton) :
      Move policy clock s g (t.askLock entry) { g with hold := .waits entry (t.nextTicket entry) } []
  /-- The lock has come, and the entry is in the table. -/
  | takes {s : State} {g : Grip} {entry ticket : Nat} {e : Entry} (waits : g.hold = .waits entry ticket)
      (locked : s.locked? entry ticket = some e) (listed : e.isRetired = false) :
      Move policy clock s g s { g with hold := .inside entry ticket } []
  /-- A ticket is given back, and nothing else becomes of the skeleton. -/
  | leaves {s t : State} {g : Grip} {entry ticket : Nat}
      (holds : g.hold = .waits entry ticket ∨ g.hold = .inside entry ticket)
      (freed : t.skeleton = s.skeleton.onLock entry (·.leave ticket)) :
      Move policy clock s g t { g with hold := .free } []
  /-- The run of the entry is unbound. -/
  | unbinds {s : State} {g : Grip} {entry ticket : Nat} (inside : g.hold = .inside entry ticket)
      (empty : g.taken = none) :
      Move policy clock s g (s.unbindRun entry)
        { g with hold := .emptied entry ticket, taken := (s.entries[entry]?).bind (·.run) } []
  /-- A run is made. -/
  | makes {s : State} {g : Grip} {entry ticket : Nat} (demand : Demand) (first : Nat)
      (emptied : g.hold = .emptied entry ticket) (wants : g.demand = some demand) (unmade : g.fresh = none) :
      Move policy clock s g
        { s with runs := s.runs ++ [{ job := (Acquire.order demand entry first).job policy s.runs.length }] }
        { g with fresh := some s.runs.length } [demand.key]
  /-- The run that was made is started and bound. -/
  | binds {s t : State} {g : Grip} {entry ticket run : Nat} (demand : Demand) (first : Nat)
      (emptied : g.hold = .emptied entry ticket) (wants : g.demand = some demand)
      (given : g.entry = some entry) (made : g.fresh = some run) (launched : s.launch run = .ok t) :
      Move policy clock s g (((t.bindRun entry run first).unlock entry ticket).replace ⟨g.taken,.ok run⟩)
        { g with hold := .free, fresh := none, taken := none } []
  /-- The run that was made is not started, and is destroyed. -/
  | refuses {s : State} {g : Grip} {run : Nat} (made : g.fresh = some run) :
      Move policy clock s g (s.refuse run) { g with fresh := none } []
  /-- No run is started, and the entry is let go. -/
  | givesUp {s t : State} {g : Grip} {entry ticket : Nat} (why : Error) (emptied : g.hold = .emptied entry ticket)
      (unmade : g.fresh = none) (same : t.skeleton = s.skeleton) :
      Move policy clock s g (((t.unlock entry ticket).replace ⟨g.taken,.error why⟩).letGo clock entry)
        { g with hold := .free, taken := none } []
  /-- Entries of the table are listed, to be looked at. -/
  | lists {s : State} {g : Grip} (visits : List (Key × Nat)) (listed : visits ⊆ s.table) :
      Move policy clock s g s { g with visits := visits } []
  /-- An entry that nobody holds is retired. -/
  | retires {s : State} {g : Grip} {key : Key} {entry : Nat} {e : Entry} (idle : g.hold = .free)
      (empty : g.taken = none) (visited : (key,entry) ∈ g.visits) (found : s.entries[entry]? = some e)
      (unlocked : e.lock.isFree = true) (unheld : e.references = 0) :
      Move policy clock s g (s.retire entry) { g with hold := .retires key entry, taken := e.run } []
  /-- The retired entry leaves the table, and its run is destroyed. -/
  | unlists {s : State} {g : Grip} {key : Key} {entry : Nat} (retired : g.hold = .retires key entry) :
      Move policy clock s g (s.unlist key entry g.taken) { g with hold := .free, taken := none } []

/-- The effect of a turn of a call: it makes one move, and lets go of what it does not need any more. -/
inductive Effect (policy : Policy) (clock : Clock) (s : State) (g : Grip) (t : State) (g' : Grip) : Prop
  | eased {h : Grip} {news : List Key} (move : Move policy clock s g t h news) (covers : h.Covers g')

namespace Effect

variable {policy : Policy} {clock : Clock} {s t : State} {g g' : Grip} {news : List Key}

theorem of (move : Move policy clock s g t g' news) : Effect policy clock s g t g' :=
  .eased move ⟨.inl rfl,.inl rfl,rfl,rfl,rfl,fun _ member => member⟩

theorem rests (same : t.skeleton = s.skeleton) : Effect policy clock s g t g := .of (.rests same)

theorem idle : Effect policy clock s g s g := .rests rfl

end Effect

/-- A call that lets go of its entry. -/
theorem Grip.covers_demand {demand : Demand} {entry : Nat} :
    (of demand entry).Covers { demand := some demand } := ⟨.inl rfl,.inr rfl,rfl,rfl,rfl,List.nil_subset _⟩

/-- A call that lets go of everything. -/
theorem Grip.covers_none {demand : Option Demand} {entry : Option Nat} :
    Covers { demand := demand, entry := entry } {} := ⟨.inr rfl,.inr rfl,rfl,rfl,rfl,List.nil_subset _⟩

/-! ### Starting a run -/

/-- What the start of a run has in its hands. -/
def Start.grip (demand : Demand) (entry ticket : Nat) : Start → Grip
  | begin => { Grip.of demand entry with hold := .inside entry ticket }
  | makeRoot replaced | makeDirectory replaced | discard replaced _ _ =>
    { Grip.of demand entry with hold := .emptied entry ticket, taken := replaced }
  | launch replaced run =>
    { Grip.of demand entry with hold := .emptied entry ticket, fresh := some run, taken := replaced }

variable {policy : Policy} {clock : Clock}

/-- The effect of a start that has come to its end, once its ticket is given back. -/
def Start.Settles (policy : Policy) (clock : Clock) (s : State) (g : Grip) (demand : Demand)
    (entry ticket : Nat) (t : State) (started : Started) : Prop :=
  match started.outcome with
  | .ok _ => Effect policy clock s g ((t.unlock entry ticket).replace started) (Grip.of demand entry)
  | .error _ =>
    Effect policy clock s g (((t.unlock entry ticket).replace started).letGo clock entry)
      { demand := some demand }

theorem Start.turn_effect (s : State) (demand : Demand) (entry ticket first : Nat) (phase : Start) :
    (phase.turn policy (Acquire.order demand entry first) s).Leads
      (fun t next => Effect policy clock s (phase.grip demand entry ticket) t (next.grip demand entry ticket))
      (Start.Settles policy clock s (phase.grip demand entry ticket) demand entry ticket) := by
  cases phase with
  | begin => exact .of (.unbinds rfl rfl)
  | makeRoot replaced =>
    unfold turn
    dsimp only
    split
    · exact .eased (.givesUp _ rfl rfl rfl) Grip.covers_demand
    · exact .idle
  | makeDirectory replaced =>
    unfold turn
    dsimp only
    split
    · exact .eased (.givesUp _ rfl rfl rfl) Grip.covers_demand
    · exact .of (.makes demand first rfl rfl rfl)
  | launch replaced run =>
    unfold turn
    dsimp only
    split
    · rename_i t launched
      exact .of (.binds demand first rfl rfl rfl rfl launched)
    · exact .of (.refuses rfl)
  | discard replaced run why =>
    exact .eased (.givesUp why rfl rfl (s.skeleton_removeOutput run)) Grip.covers_demand

/-! ### Calls -/

/-- What a request for a session has in its hands. -/
def Acquire.grip (demand : Demand) : Acquire → Grip
  | lookup | retrying => { demand := some demand }
  | approaching entry => Grip.of demand entry
  | locking entry ticket => { Grip.of demand entry with hold := .waits entry ticket }
  | listing entry ticket _ | listed entry ticket _ _ => { Grip.of demand entry with hold := .inside entry ticket }
  | starting entry ticket phase => phase.grip demand entry ticket

/-- What a lease has in its hands. -/
def Lease.grip (l : Lease) : Grip := { demand := l.pending, entry := some l.entry }

/-- What the end of a request for a session leaves in somebody's hands. -/
def leftOf : Result Lease → Grip
  | .ok lease => lease.grip
  | .error _ => {}

theorem Effect.lets_go_of_demand {s t : State} {g : Grip} {demand : Demand} {entry : Nat}
    (effect : Effect policy clock s g t (Grip.of demand entry)) : Effect policy clock s g t { entry := some entry } := by
  obtain ⟨move,covers⟩ := effect
  exact .eased move ⟨.inr rfl,covers.entry,covers.hold,covers.fresh,covers.taken,List.nil_subset _⟩

theorem Effect.lets_go {s t : State} {g g' : Grip} (effect : Effect policy clock s g t g') (free : g'.hold = .free)
    (unmade : g'.fresh = none) (untaken : g'.taken = none) : Effect policy clock s g t {} := by
  obtain ⟨move,covers⟩ := effect
  exact .eased move ⟨.inr rfl,.inr rfl,free.symm.trans covers.hold,unmade.symm.trans covers.fresh,
    untaken.symm.trans covers.taken,List.nil_subset _⟩

theorem Start.Settles.left {s t : State} {g : Grip} {demand : Demand} {entry ticket : Nat} {started : Started}
    (settles : Start.Settles policy clock s g demand entry ticket t started) :
    (Acquire.settle clock entry ticket t started).Leads (fun _ _ => False)
      (fun t r => Effect policy clock s g t (leftOf r)) := by
  obtain ⟨replaced,outcome⟩ := started
  cases outcome with
  | ok run => exact Effect.lets_go_of_demand settles
  | error why => exact Effect.lets_go settles rfl rfl rfl

/-- The effect of a ticket that is given back. -/
theorem State.unlock_effect (s : State) {g : Grip} {entry ticket : Nat}
    (holds : g.hold = .waits entry ticket ∨ g.hold = .inside entry ticket) :
    Effect policy clock s g (s.unlock entry ticket) { g with hold := .free } :=
  .of (.leaves holds (s.skeleton_unlock entry ticket))

/-- The effect of the end of a request whose run goes on being used. -/
theorem State.reuse_effect (s : State) {g : Grip} {entry ticket : Nat} (index : Nat)
    (holds : g.hold = .waits entry ticket ∨ g.hold = .inside entry ticket) :
    Effect policy clock s g ((s.onEntry entry fun e => { e with lastRequested := index }).unlock entry ticket)
      { g with hold := .free } := by
  have noted : (s.onEntry entry fun e => { e with lastRequested := index }).skeleton = s.skeleton := by
    apply skeleton_onEntry <;> exact fun _ => rfl
  exact .of (.leaves holds (by rw [skeleton_unlock,noted]))

/-- A request that has come to the lock of its entry. -/
theorem Acquire.decide_effect (s : State) (demand : Demand) {entry ticket : Nat} {e : Entry}
    (locked : s.locked? entry ticket = some e) :
    (decide policy clock demand s entry ticket e).Leads
      (fun t next => Effect policy clock s ((locking entry ticket).grip demand) t (next.grip demand))
      (fun t r => Effect policy clock s ((locking entry ticket).grip demand) t (leftOf r)) := by
  have left : Effect policy clock s ((locking entry ticket).grip demand) (s.unlock entry ticket)
      (Grip.of demand entry) := s.unlock_effect (.inl rfl)
  unfold decide
  split
  · have withdrawn : ((s.unlock entry ticket).letGo clock entry).skeleton =
        s.skeleton.onLock entry (·.leave ticket) := by rw [State.skeleton_letGo,State.skeleton_unlock]
    exact .eased (.leaves (.inl rfl) withdrawn) Grip.covers_demand
  · rename_i listed
    have inside : Effect policy clock s ((locking entry ticket).grip demand) s
        { Grip.of demand entry with hold := .inside entry ticket } := .of (.takes rfl locked (by simpa using listed))
    split
    · exact left.lets_go_of_demand
    · exact left
    · split
      · split
        · exact inside
        · exact (s.reuse_effect (index demand) (.inl rfl)).lets_go_of_demand
      · exact inside
    · exact inside

theorem Acquire.turn_effect (s : State) (demand : Demand) (phase : Acquire) :
    (phase.turn policy clock demand s).Leads
      (fun t next => Effect policy clock s (phase.grip demand) t (next.grip demand))
      (fun t r => Effect policy clock s (phase.grip demand) t (leftOf r)) := by
  cases phase with
  | lookup => exact .of (.enters demand)
  | approaching entry => exact .of (.asks rfl (.inl rfl) (s.skeleton_hold entry))
  | locking entry ticket =>
    unfold turn
    dsimp only
    split
    · trivial
    · rename_i e locked
      exact decide_effect s demand locked
  | retrying => exact .idle
  | listing entry ticket run => exact .idle
  | listed entry ticket run holds =>
    unfold turn
    dsimp only
    split
    · exact (s.reuse_effect (index demand) (.inr rfl)).lets_go_of_demand
    · exact .idle
  | starting entry ticket phase =>
    exact (phase.turn_effect s demand entry ticket (index demand)).within (fun _ _ effect => effect)
      (fun _ _ settles => Turn.Leads.mono settles.left (fun _ _ no => no.elim) (fun _ _ effect => effect))

theorem Start.Settles.bound {s t : State} {g : Grip} {demand : Demand} {lease : Lease} {ticket : Nat}
    {started : Started} (settles : Start.Settles policy clock s g demand lease.entry ticket t started) :
    (Bind.settle clock lease ticket t started).Leads (fun _ _ => False)
      (fun t r => Effect policy clock s g t (leftOf r)) := by
  obtain ⟨replaced,outcome⟩ := started
  cases outcome with
  | ok run => exact Effect.lets_go_of_demand settles
  | error why => exact Effect.lets_go settles rfl rfl rfl

/-- What the binding of a lease that may start a run has in its hands. -/
def Bind.gripOf (demand : Demand) (entry : Nat) : Bind → Grip
  | begin | approaching _ | waiting .. => Grip.of demand entry
  | locking _ _ ticket => { Grip.of demand entry with hold := .waits entry ticket }
  | starting ticket _ phase => phase.grip demand entry ticket

/-- What the binding of a lease has in its hands. -/
def Bind.grip (lease : Lease) (phase : Bind) : Grip :=
  match lease.pending with
  | none => lease.grip
  | some demand => phase.gripOf demand lease.entry

theorem Bind.decide_effect (s : State) (lease : Lease) (demand : Demand) {deadline calls ticket : Nat} {e : Entry}
    (locked : s.locked? lease.entry ticket = some e) :
    (decide clock lease demand s deadline calls ticket e).Leads
      (fun t next => Effect policy clock s ((locking deadline calls ticket).gripOf demand lease.entry) t
        (next.gripOf demand lease.entry))
      (fun t r => Effect policy clock s ((locking deadline calls ticket).gripOf demand lease.entry) t
        (leftOf r)) := by
  have left : Effect policy clock s ((locking deadline calls ticket).gripOf demand lease.entry)
      (s.unlock lease.entry ticket) (Grip.of demand lease.entry) := s.unlock_effect (.inl rfl)
  unfold decide
  dsimp only
  split
  · have withdrawn : ((s.unlock lease.entry ticket).drop clock lease).skeleton =
        s.skeleton.onLock lease.entry (·.leave ticket) := by
      rw [State.drop,State.skeleton_letGo,State.skeleton_unlock]
    exact .eased (.leaves (.inl rfl) withdrawn) Grip.covers_none
  · rename_i listed
    split
    · exact left.lets_go_of_demand
    · split
      · exact .of (.takes rfl locked (by simpa using listed))
      · exact left

theorem Bind.turn_effect (s : State) (lease : Lease) (phase : Bind) :
    (phase.turn policy clock lease s).Leads
      (fun t next => Effect policy clock s (phase.grip lease) t (next.grip lease))
      (fun t r => Effect policy clock s (phase.grip lease) t (leftOf r)) := by
  unfold turn
  cases pending : lease.pending with
  | none =>
    simp only [Turn.Leads,grip,pending]
    exact .idle
  | some demand =>
    simp only [grip,pending]
    cases phase with
    | begin => exact .idle
    | approaching deadline => exact .of (.asks rfl (.inl rfl) rfl)
    | locking deadline calls ticket =>
      dsimp only
      split
      · trivial
      · rename_i e locked
        exact decide_effect s lease demand locked
    | waiting deadline calls =>
      dsimp only
      split
      · trivial
      · exact .idle
    | starting ticket first phase =>
      exact (phase.turn_effect s demand lease.entry ticket first).within (fun _ _ effect => effect)
        (fun _ _ settles => Turn.Leads.mono settles.bound (fun _ _ no => no.elim) (fun _ _ effect => effect))

/-- What the note that a segment of a run was served has in its hands. -/
def Served.gripOf (entry : Nat) : Served → Grip
  | locking ticket => { entry := some entry, hold := .waits entry ticket }
  | begin | noted _ => { entry := some entry }

/-- What the note that a segment was served has in its hands. -/
def Served.grip (lease : Lease) (phase : Served) : Grip :=
  match lease.run with
  | none => { entry := some lease.entry }
  | some _ => phase.gripOf lease.entry

theorem Served.turn_effect (s : State) (lease : Lease) (index : Nat) (highest : Option Nat) (phase : Served) :
    (phase.turn policy lease index highest s).Leads
      (fun t next => Effect policy clock s (phase.grip lease) t (next.grip lease))
      (fun t _ => Effect policy clock s (phase.grip lease) t { entry := some lease.entry }) := by
  unfold turn
  cases bound : lease.run with
  | none =>
    simp only [Turn.Leads,grip,bound]
    exact .idle
  | some run =>
    simp only [grip,bound]
    cases phase with
    | begin => exact .of (.asks rfl (.inl rfl) rfl)
    | locking ticket =>
      dsimp only
      split
      · trivial
      · split
        · have noted : ((s.unlock lease.entry ticket).onEntry lease.entry fun e =>
              { e with lastServed := some (latest e index) }).skeleton =
                s.skeleton.onLock lease.entry (·.leave ticket) := by
            rw [State.skeleton_onEntry,State.skeleton_unlock] <;> exact fun _ => rfl
          exact .of (.leaves (.inl rfl) noted)
        · exact s.unlock_effect (.inl rfl)
    | noted lastServed =>
      dsimp only
      split
      · exact .rests (s.skeleton_signalRun run false .throttled .running)
      · exact .idle

/-- What the handling of a report has in its hands. -/
def Feedback.grip : Feedback → Grip
  | locking _ entry ticket => { hold := .waits entry ticket }
  | lookup | recording .. | listing .. | listed .. => {}

theorem Feedback.turn_effect (s : State) (id : RunId) (report : Encoder.Report) (phase : Feedback) :
    (phase.turn policy id report s).Leads (fun t next => Effect policy clock s phase.grip t next.grip)
      (fun t _ => Effect policy clock s phase.grip t {}) := by
  have recorded : ∀ run, (s.onRun run fun r => { r with progress := some report }).skeleton = s.skeleton := by
    intro run
    apply State.skeleton_onRun <;> exact fun _ => rfl
  cases phase with
  | lookup =>
    unfold turn
    dsimp only
    split
    · exact .idle
    · rename_i run entry found
      obtain ⟨_,_,owner⟩ := Option.bind_eq_some_iff.mp found
      exact .of (.asks rfl (.inr ⟨run,List.mem_of_find?_eq_some owner⟩) rfl)
  | locking run entry ticket =>
    unfold turn
    dsimp only
    split
    · trivial
    · split
      · exact s.unlock_effect (.inl rfl)
      · exact s.unlock_effect (.inl rfl)
  | recording run lastServed =>
    unfold turn
    dsimp only
    split
    · exact .rests (recorded run)
    · exact .rests (recorded run)
  | listing run lastServed => exact .idle
  | listed run lastServed available =>
    unfold turn
    dsimp only
    split
    · split
      · exact .rests (s.skeleton_signalRun run true .running .throttled)
      · exact .idle
    · exact .idle

/-- What a round of cleaning up has in its hands. -/
def Cleanup.grip : Cleanup → Grip
  | collect => {}
  | visiting _ rest _ | tearing _ _ _ rest _ => { visits := rest }
  | unlisting _ key entry run rest _ => { hold := .retires key entry, taken := run, visits := rest }

theorem Cleanup.turn_effect (s : State) (phase : Cleanup) :
    (phase.turn policy clock s).Leads (fun t next => Effect policy clock s phase.grip t next.grip)
      (fun t _ => Effect policy clock s phase.grip t {}) := by
  cases phase with
  | collect => exact .of (.lists _ (List.filter_subset_self _))
  | visiting now waiting removed =>
    cases waiting with
    | nil => exact .idle
    | cons next rest =>
      obtain ⟨key,entry⟩ := next
      have passes : Effect policy clock s { visits := (key,entry) :: rest } s { visits := rest } :=
        .eased (.rests rfl) ⟨.inl rfl,.inl rfl,rfl,rfl,rfl,List.subset_cons_self _ _⟩
      unfold turn
      dsimp only
      split
      · exact passes
      · rename_i e found
        split
        · rename_i idle
          obtain ⟨unlocked,idle⟩ := Bool.and_eq_true_iff.mp idle
          have unheld : e.references = 0 := eq_of_beq (Bool.and_eq_true_iff.mp idle).1
          have retired : Move policy clock s { visits := (key,entry) :: rest } (s.retire entry)
              { hold := .retires key entry, taken := e.run, visits := (key,entry) :: rest } [] :=
            .retires rfl rfl List.mem_cons_self found unlocked unheld
          exact .eased retired ⟨.inl rfl,.inl rfl,rfl,rfl,rfl,List.subset_cons_self _ _⟩
        · exact passes
  | unlisting now key entry run rest removed =>
    have gone : Effect policy clock s { hold := .retires key entry, taken := run, visits := rest }
        (s.unlist key entry run) { visits := rest } := .of (.unlists rfl)
    unfold turn
    dsimp only
    cases run with
    | none => exact gone
    | some run =>
      simp only [State.unlist] at gone
      dsimp only
      split
      · rename_i t phase destroyed
        rw [destroyed] at gone
        exact gone
      · rename_i t destroyed
        rw [destroyed] at gone
        exact gone
  | tearing now run phase rest removed =>
    exact (s.teardown_keeps_skeleton clock run phase).within (fun _ _ kept => .rests kept)
      (fun _ _ kept => .rests kept)

/-- What a call has in its hands. -/
def Call.grip : Call → Grip
  | acquire demand phase => phase.grip demand
  | bind grant phase => phase.grip grant.lease
  | mark lease _ _ phase => phase.grip lease
  | report _ _ phase => phase.grip
  | cleanUp phase => phase.grip

/-- What the end of a call leaves in somebody's hands. -/
def leftBy (given : Option Grant) : Grip := given.elim {} (·.lease.grip)

theorem Call.granted_effect {s t : State} {g : Grip} {demand : Demand} {r : Result Lease}
    (effect : Effect policy clock s g t (leftOf r)) :
    (Call.granted demand t r).Leads (fun _ _ => False) (fun t given => Effect policy clock s g t (leftBy given)) := by
  cases r with
  | ok lease => exact effect
  | error why => exact effect

/-- Every turn of a call is an effect on the state and on what the call has in its hands. -/
theorem Call.turn_effect (s : State) (call : Call) :
    (call.turn policy clock s).Leads (fun t next => Effect policy clock s call.grip t next.grip)
      (fun t given => Effect policy clock s call.grip t (leftBy given)) := by
  cases call with
  | acquire demand phase =>
    exact Turn.Leads.within (phase.turn_effect s demand) (fun _ _ effect => effect)
      (fun _ _ effect => Turn.Leads.mono (granted_effect effect) (fun _ _ no => no.elim) (fun _ _ effect => effect))
  | bind grant phase =>
    exact Turn.Leads.within (phase.turn_effect s grant.lease) (fun _ _ effect => effect)
      (fun _ _ effect => Turn.Leads.mono (granted_effect effect) (fun _ _ no => no.elim) (fun _ _ effect => effect))
  | mark lease index highest phase =>
    exact Turn.Leads.within (phase.turn_effect s lease index highest) (fun _ _ effect => effect)
      (fun _ _ effect => Effect.lets_go effect rfl rfl rfl)
  | report id found phase =>
    exact Turn.Leads.within (phase.turn_effect s id found) (fun _ _ effect => effect) (fun _ _ effect => effect)
  | cleanUp phase =>
    exact Turn.Leads.within (phase.turn_effect s) (fun _ _ effect => effect) (fun _ _ effect => effect)

end Playout.Playback
