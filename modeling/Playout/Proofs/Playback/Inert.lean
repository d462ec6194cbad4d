import Playout.Proofs.Playback.Bookkeeping
import Playout.Proofs.Playback.Processes

/-!
Actors that come late. A report of an encoder and a note that a segment was served give up
the lock of an entry between finding the run and acting on it, so that everything may happen
to the run meanwhile. What they do is followed turn by turn, whatever others do in between
(`Course`): they keep to the run that they name, and they leave alone what is noted of the
players unless the run is found bound under the lock.
-/
namespace Playout.Playback

/-- A turn that was had: the phase, and the states before and after it. -/
structure Turned (φ : Type) where
  phase : φ
  before : State
  after : State

/-- The course of a machine beside other traffic, which begins in a phase when the traffic is at its start: the traffic
    now, the phase or the result that the machine has come to, and the turns that it has had. -/
inductive Course {φ ρ : Type} (policy : Policy) (conduct : Conduct) (turn : φ → State → Turn State φ ρ)
    (start : Traffic) (first : φ) : Traffic → φ ⊕ ρ → List (Turned φ) → Prop
  | begins : Course policy conduct turn start first start (.inl first) []
  | others {w w' : Traffic} {stand : φ ⊕ ρ} {turns : List (Turned φ)}
      (before : Course policy conduct turn start first w stand turns) (step : w.Step policy conduct w') :
      Course policy conduct turn start first w' stand turns
  | goesOn {w : Traffic} {phase next : φ} {turns : List (Turned φ)} {s : State}
      (before : Course policy conduct turn start first w (.inl phase) turns)
      (turned : turn phase w.state = .goesOn s next) :
      Course policy conduct turn start first { w with state := s } (.inl next) (turns ++ [⟨phase,w.state,s⟩])
  | ends {w : Traffic} {phase : φ} {result : ρ} {turns : List (Turned φ)} {s : State}
      (before : Course policy conduct turn start first w (.inl phase) turns)
      (turned : turn phase w.state = .ends s result) :
      Course policy conduct turn start first { w with state := s } (.inr result) (turns ++ [⟨phase,w.state,s⟩])

/-- Calls whose turns are those of a machine, and that ask for no session. -/
structure Manages {φ ρ : Type} (policy : Policy) (turn : φ → State → Turn State φ ρ) (call : φ → Call) : Prop where
  turn : ∀ clock phase s, (call phase).turn policy clock s = (turn phase s).within call fun s _ => .ends s none
  demand : ∀ phase, (call phase).demand? = none

namespace Course

variable {φ ρ : Type} {policy : Policy} {conduct : Conduct} {turn : φ → State → Turn State φ ρ} {call : φ → Call}
  {start w : Traffic} {first : φ} {stand : φ ⊕ ρ} {turns : List (Turned φ)}

/-- The call that a machine still is. -/
def call? (call : φ → Call) (stand : φ ⊕ ρ) : Option Call := stand.elim (some ∘ call) fun _ => none

theorem goesOn_step (manages : Manages policy turn call) {phase next : φ} {s : State}
    (turned : turn phase w.state = .goesOn s next) :
    (w.joined (some (call phase)) 0).Step policy conduct (({ w with state := s } : Traffic).joined (some (call next)) 0) := by
  have turned' : (call phase).turn policy w.clock w.state = .goesOn s (call next) := by
    rw [manages.turn,turned]
    rfl
  have step : (w.joined (some (call phase)) 0).Step policy conduct _ := .goesOn (call phase) w.calls rfl turned'
  rw [Traffic.makersAfter,manages.demand,Option.map_none,Option.getD_none,List.append_nil] at step
  exact step

theorem ends_step (manages : Manages policy turn call) {phase : φ} {result : ρ} {s : State}
    (turned : turn phase w.state = .ends s result) :
    (w.joined (some (call phase)) 0).Step policy conduct (({ w with state := s } : Traffic).joined none 0) := by
  have turned' : (call phase).turn policy w.clock w.state = .ends s none := by
    rw [manages.turn,turned]
    rfl
  have step : (w.joined (some (call phase)) 0).Step policy conduct _ := .ends (call phase) w.calls rfl turned'
  rw [Traffic.makersAfter,manages.demand,Option.map_none,Option.getD_none,List.append_nil,Option.elim_none,
    Multiset.zero_add] at step
  exact step

/-- What holds all along a course: of the whole traffic (`known`), of the phase that the machine is at (`knows`), of the
    turns that it has had (`done`), and of its result (`ended`). -/
theorem along (manages : Manages policy turn call) (known : Traffic → Prop) (knows : φ → State → Prop)
    {done : Turned φ → Prop} (ended : ρ → Prop)
    (steps : ∀ u v : Traffic, u.Reachable policy conduct → u.Step policy conduct v → known u →
      known v ∧ ∀ phase, knows phase u.state → knows phase v.state)
    (own : ∀ (phase : φ) (u : Traffic), u.Reachable policy conduct → known u → knows phase u.state →
      (turn phase u.state).Leads (fun t next => knows next t ∧ done ⟨phase,u.state,t⟩)
        (fun t result => ended result ∧ done ⟨phase,u.state,t⟩))
    (reached : (start.joined (some (call first)) 0).Reachable policy conduct)
    (begins : known (start.joined (some (call first)) 0)) (knows_first : knows first start.state)
    (course : Course policy conduct turn start first w stand turns) :
    (w.joined (call? call stand) 0).Reachable policy conduct ∧ known (w.joined (call? call stand) 0) ∧
      stand.elim (knows · w.state) ended ∧ ∀ x ∈ turns, done x := by
  induction course with
  | begins => exact ⟨reached,begins,knows_first,fun x member => by cases member⟩
  | @others u v stand turns before step ih =>
    obtain ⟨before,known,stands,turned⟩ := ih
    have stepped := step.joined (call? call stand) 0
    obtain ⟨known',knows'⟩ := steps _ _ before stepped known
    refine ⟨before.tail stepped,known',?_,turned⟩
    cases stand with
    | inl phase => exact knows' phase stands
    | inr result => exact stands
  | @goesOn u phase next turns s _ turned ih =>
    obtain ⟨before,known,stands,had⟩ := ih
    have stepped : (u.joined (some (call phase)) 0).Step policy conduct _ := goesOn_step manages turned
    have leads := own phase _ before known stands
    rw [show (u.joined (call? call (.inl phase : φ ⊕ ρ)) 0).state = u.state from rfl,turned] at leads
    refine ⟨before.tail stepped,(steps _ _ before stepped known).1,leads.1,fun x member => ?_⟩
    rcases List.mem_append.mp member with old | new
    · exact had x old
    · rw [List.mem_singleton.mp new]
      exact leads.2
  | @ends u phase result turns s _ turned ih =>
    obtain ⟨before,known,stands,had⟩ := ih
    have stepped : (u.joined (some (call phase)) 0).Step policy conduct _ := ends_step manages turned
    have leads := own phase _ before known stands
    rw [show (u.joined (call? call (.inl phase : φ ⊕ ρ)) 0).state = u.state from rfl,turned] at leads
    refine ⟨before.tail stepped,(steps _ _ before stepped known).1,leads.1,fun x member => ?_⟩
    rcases List.mem_append.mp member with old | new
    · exact had x old
    · rw [List.mem_singleton.mp new]
      exact leads.2

/-- What holds all along a course of its phases (`knows`), of the turns that it has had (`done`) and of its result
    (`ended`), if something is given for each of these turns. -/
theorem each (knows : φ → Prop) {given : φ → State → Prop} {done : Turned φ → Prop} {ended : ρ → Prop}
    (own : ∀ phase s, knows phase → given phase s → (turn phase s).Leads (fun t next => knows next ∧ done ⟨phase,s,t⟩)
      (fun t result => ended result ∧ done ⟨phase,s,t⟩))
    (course : Course policy conduct turn start first w stand turns) (begins : knows first)
    (all : ∀ x ∈ turns, given x.phase x.before) :
    stand.elim knows ended ∧ ∀ x ∈ turns, done x := by
  have last {turns : List (Turned φ)} {x : Turned φ} (had : ∀ x ∈ turns, done x) (now : done x) :
      ∀ y ∈ turns ++ [x], done y := by
    intro y member
    rcases List.mem_append.mp member with old | new
    · exact had y old
    · exact List.mem_singleton.mp new ▸ now
  induction course with
  | begins => exact ⟨begins,fun x member => by cases member⟩
  | others before step ih => exact ih all
  | @goesOn u phase next turns s _ turned ih =>
    obtain ⟨stands,had⟩ := ih fun x member => all x (List.mem_append_left _ member)
    have leads := own phase u.state stands (all ⟨phase,u.state,s⟩ (List.mem_append_right _ (List.mem_singleton_self _)))
    rw [turned] at leads
    exact ⟨leads.1,last had leads.2⟩
  | @ends u phase result turns s _ turned ih =>
    obtain ⟨stands,had⟩ := ih fun x member => all x (List.mem_append_left _ member)
    have leads := own phase u.state stands (all ⟨phase,u.state,s⟩ (List.mem_append_right _ (List.mem_singleton_self _)))
    rw [turned] at leads
    exact ⟨leads.1,last had leads.2⟩

end Course

/-! ### What a turn leaves alone -/

namespace Turned

variable {φ : Type}

/-- What the entries note of their players stays as it is. -/
def KeepsNotes (x : Turned φ) : Prop := ∀ entry, x.after.noteAt entry = x.before.noteAt entry

/-- Nothing becomes of a run and of its process. -/
structure Spares (x : Turned φ) (run : Nat) : Prop where
  same : x.after.runs[run]? = x.before.runs[run]?
  process : ∀ r, x.before.runs[run]? = some r → x.after.processOf? r = x.before.processOf? r

/-- No run is paused or resumed. -/
structure SignalsNone (x : Turned φ) : Prop where
  stages : x.after.runs.map (·.stage) = x.before.runs.map (·.stage)
  processes : x.after.processes = x.before.processes

/-- Nothing becomes of what is noted, of the runs and of the processes. -/
structure IsIdle (x : Turned φ) : Prop where
  notes : x.KeepsNotes
  runs : x.after.runs = x.before.runs
  processes : x.after.processes = x.before.processes

namespace IsIdle

variable {x : Turned φ}

theorem spares (idle : x.IsIdle) (run : Nat) : x.Spares run :=
  ⟨by rw [idle.runs],fun r _ => by simp only [State.processOf?,idle.processes]⟩

theorem signalsNone (idle : x.IsIdle) : x.SignalsNone := ⟨by rw [idle.runs],idle.processes⟩

end IsIdle

theorem idle (phase : φ) (s : State) : IsIdle ⟨phase,s,s⟩ := ⟨fun _ => rfl,rfl,rfl⟩

theorem idle_askLock (phase : φ) (s : State) (entry : Nat) : IsIdle ⟨phase,s,s.askLock entry⟩ :=
  ⟨s.noteAt_askLock entry,rfl,rfl⟩

theorem idle_unlock (phase : φ) (s : State) (entry ticket : Nat) : IsIdle ⟨phase,s,s.unlock entry ticket⟩ :=
  ⟨s.noteAt_unlock entry ticket,rfl,rfl⟩

/-- A signal to one run leaves the others alone. -/
theorem spares_signalRun {s : State} (proper : s.IsProper) (phase : φ) {run other : Nat} (differs : run ≠ other)
    (pause : Bool) (source target : Stage) : Spares ⟨phase,s,(s.signalRun run pause source target).1⟩ other := by
  unfold State.signalRun
  split
  · exact (idle phase s).spares other
  · rename_i r found
    split
    · split
      · rename_i u sent
        simp only [State.signal?,Option.bind_eq_bind,Option.bind_eq_some_iff] at sent
        obtain ⟨number,has,p,_,p',_,same⟩ := sent
        cases same
        refine ⟨List.getElem?_modify_ne _ _ differs,fun r' found' => ?_⟩
        simp only [State.processOf?]
        cases has' : r'.process with
        | none => rfl
        | some number' =>
          have apart : number ≠ number' := by
            rintro rfl
            exact differs (proper.apart run other r r' number found found' has has')
          exact List.getElem?_set_ne apart
      · exact (idle phase s).spares other
    · exact (idle phase s).spares other

end Turned

/-! ### Reports -/

namespace Feedback

variable {policy : Policy} {s t : State} {id : RunId} {report : Encoder.Report}

/-- The run that a report is for, once it is looked up. -/
def run? : Feedback → Option Nat
  | lookup => none
  | locking run _ _ | recording run _ | listing run _ | listed run _ _ => some run

/-- Whether a report has been found to be for the run that it names. -/
def Names (id : RunId) (s : State) (phase : Feedback) : Prop := ∀ run, phase.run? = some run → s.runNumber? id = some run

/-- Whether a report has not been recorded. -/
def IsEarly : Feedback → Prop
  | lookup | locking .. | recording .. => True
  | listing .. | listed .. => False

/-- Whether a report has not been found to be for a run that is bound. -/
def IsOutside : Feedback → Prop
  | lookup | locking .. => True
  | recording .. | listing .. | listed .. => False

theorem manages (policy : Policy) (id : RunId) (report : Encoder.Report) :
    Manages policy (Feedback.turn policy id report) (Call.report id report) := ⟨fun _ _ _ => rfl,fun _ => rfl⟩

end Feedback

namespace State

variable {s t : State} {id : RunId} {run : Nat}

theorem runNumber?_eq (s : State) (id : RunId) : s.runNumber? id = s.skeleton.jobs.findIdx? (·.run == id) := by
  simp [runNumber?,skeleton,List.findIdx?_map,Function.comp_def]

/-- A run keeps its number. -/
theorem runNumber?_of_grows (grows : s.skeleton.jobs <+: t.skeleton.jobs) (named : s.runNumber? id = some run) :
    t.runNumber? id = some run := by
  obtain ⟨more,grows⟩ := grows
  rw [runNumber?_eq] at named ⊢
  rw [← grows,List.findIdx?_append,named]
  rfl

theorem run_of_runNumber? (named : s.runNumber? id = some run) : ∃ r, s.runs[run]? = some r ∧ r.job.run = id := by
  obtain ⟨inside,same,_⟩ := List.findIdx?_eq_some_iff_getElem.mp named
  exact ⟨_,List.getElem?_eq_getElem inside,by simpa using same⟩

end State

namespace Feedback

variable {policy : Policy} {s t : State} {id : RunId} {report : Encoder.Report}

theorem Names.grow {phase : Feedback} (names : phase.Names id s) (grows : s.skeleton.jobs <+: t.skeleton.jobs) :
    phase.Names id t := fun run found => State.runNumber?_of_grows grows (names run found)

theorem Names.of_jobs {phase : Feedback} (names : phase.Names id s) (jobs : t.skeleton.jobs = s.skeleton.jobs) :
    phase.Names id t := names.grow (jobs ▸ List.prefix_refl _)

/-- A turn of a report keeps to the run that the report names. -/
theorem turn_names (phase : Feedback) (names : phase.Names id s) :
    (phase.turn policy id report s).Leads (fun t next => next.Names id t) (fun _ _ => True) := by
  cases phase with
  | lookup =>
    unfold turn
    dsimp only
    split
    · trivial
    · rename_i run entry found
      obtain ⟨run',named,owner⟩ := Option.bind_eq_some_iff.mp found
      have same : run = run' := by simpa using List.find?_some owner
      rintro _ ⟨⟩
      exact same ▸ named
  | locking run entry ticket =>
    unfold turn
    dsimp only
    split
    · trivial
    · split
      · exact names
      · trivial
  | recording run lastServed =>
    have recorded : (recording run lastServed).Names id (s.onRun run fun r => { r with progress := some report }) := by
      refine names.of_jobs (congrArg Skeleton.jobs (s.skeleton_onRun ?_ ?_ run)) <;> exact fun _ => rfl
    unfold turn
    dsimp only
    split
    · trivial
    · exact recorded
  | listing run lastServed => exact names
  | listed run lastServed available =>
    unfold turn
    dsimp only
    split
    · split <;> trivial
    · trivial

/-- A turn of a report leaves what is noted of the players, and every run but the one that the report names. -/
theorem turn_spares (phase : Feedback) (names : phase.Names id s) (proper : s.IsProper) :
    (phase.turn policy id report s).Leads
      (fun t _ => Turned.KeepsNotes ⟨phase,s,t⟩ ∧ ∀ run, s.runNumber? id ≠ some run → Turned.Spares ⟨phase,s,t⟩ run)
      (fun t _ => Turned.KeepsNotes ⟨phase,s,t⟩ ∧ ∀ run, s.runNumber? id ≠ some run → Turned.Spares ⟨phase,s,t⟩ run) := by
  have idle {t : State} (idle : Turned.IsIdle ⟨phase,s,t⟩) :
      Turned.KeepsNotes ⟨phase,s,t⟩ ∧ ∀ run, s.runNumber? id ≠ some run → Turned.Spares ⟨phase,s,t⟩ run :=
    ⟨idle.notes,fun run _ => idle.spares run⟩
  have differs {run other : Nat} (named : phase.run? = some run) (differs : s.runNumber? id ≠ some other) : run ≠ other := by
    rintro rfl
    exact differs (names run named)
  cases phase with
  | lookup =>
    unfold turn
    dsimp only
    split
    · exact idle (Turned.idle _ s)
    · exact idle (Turned.idle_askLock _ s _)
  | locking run entry ticket =>
    unfold turn
    dsimp only
    split
    · trivial
    · split <;> exact idle (Turned.idle_unlock _ s entry ticket)
  | recording run lastServed =>
    have recorded : Turned.KeepsNotes ⟨recording run lastServed,s,s.onRun run fun r => { r with progress := some report }⟩ ∧
        ∀ other, s.runNumber? id ≠ some other →
          Turned.Spares ⟨recording run lastServed,s,s.onRun run fun r => { r with progress := some report }⟩ other :=
      ⟨fun _ => rfl,fun other unnamed => ⟨List.getElem?_modify_ne _ _ (differs rfl unnamed),fun _ _ => rfl⟩⟩
    unfold turn
    dsimp only
    split <;> exact recorded
  | listing run lastServed => exact idle (Turned.idle _ s)
  | listed run lastServed available =>
    unfold turn
    dsimp only
    split
    · split
      · refine ⟨State.noteAt_of_entries (s.beside_signalRun run true .running .throttled).entries,fun other unnamed => ?_⟩
        exact Turned.spares_signalRun proper _ (differs rfl unnamed) true .running .throttled
      · exact idle (Turned.idle _ s)
    · exact idle (Turned.idle _ s)

/-- A report that is the last one, or of a run that has exited, is recorded and no more. -/
theorem turn_records (phase : Feedback) (early : phase.IsEarly)
    (ended : ∀ run lastServed, phase = .recording run lastServed → report.isLast = true ∨ s.hasExited run = true) :
    (phase.turn policy id report s).Leads (fun t next => next.IsEarly ∧ Turned.SignalsNone ⟨phase,s,t⟩)
      (fun t throttled => throttled = false ∧ Turned.SignalsNone ⟨phase,s,t⟩) := by
  cases phase with
  | lookup =>
    unfold turn
    dsimp only
    split
    · exact ⟨rfl,(Turned.idle _ s).signalsNone⟩
    · exact ⟨trivial,(Turned.idle_askLock _ s _).signalsNone⟩
  | locking run entry ticket =>
    unfold turn
    dsimp only
    split
    · trivial
    · split
      · exact ⟨trivial,(Turned.idle_unlock _ s entry ticket).signalsNone⟩
      · exact ⟨rfl,(Turned.idle_unlock _ s entry ticket).signalsNone⟩
  | recording run lastServed =>
    have recorded : Turned.SignalsNone
        ⟨recording run lastServed,s,s.onRun run fun r => { r with progress := some report }⟩ :=
      ⟨map_modify_self (p := fun r : Run => r.stage) (f := fun r : Run => { r with progress := some report })
        (fun _ => rfl) s.runs run,rfl⟩
    have exited : (s.onRun run fun r => { r with progress := some report }).hasExited run = s.hasExited run := by
      simp only [State.hasExited,State.onRun,List.getElem?_modify_eq]
      cases s.runs[run]? <;> rfl
    have stops : (report.isLast || (s.onRun run fun r => { r with progress := some report }).hasExited run) = true := by
      rw [exited,Bool.or_eq_true]
      exact ended run lastServed rfl
    unfold turn
    dsimp only
    rw [if_pos stops]
    exact ⟨rfl,recorded⟩
  | listing run lastServed => exact early.elim
  | listed run lastServed available => exact early.elim

/-- A report of a run that is not bound finds that out under the lock, if not before. -/
theorem turn_ignored (phase : Feedback) (outside : phase.IsOutside)
    (unbound : ∀ run, phase.run? = some run → ∀ entry, s.skeleton.bound? entry ≠ some run) :
    (phase.turn policy id report s).Leads (fun t next => next.IsOutside ∧ Turned.IsIdle ⟨phase,s,t⟩)
      (fun t throttled => throttled = false ∧ Turned.IsIdle ⟨phase,s,t⟩) := by
  cases phase with
  | lookup =>
    unfold turn
    dsimp only
    split
    · exact ⟨rfl,Turned.idle _ s⟩
    · exact ⟨trivial,Turned.idle_askLock _ s _⟩
  | locking run entry ticket =>
    unfold turn
    dsimp only
    split
    · trivial
    · rename_i e locked
      split
      · rename_i bound
        exact absurd ((State.bound?_of_locked locked).trans bound) (unbound run rfl entry)
      · exact ⟨rfl,Turned.idle_unlock _ s entry ticket⟩
  | _ => exact outside.elim

end Feedback

/-! ### Notes that a segment was served -/

namespace Served

variable {policy : Policy} {s : State} {lease : Lease} {index : Nat} {highest : Option Nat}

theorem manages (policy : Policy) (lease : Lease) (index : Nat) (highest : Option Nat) :
    Manages policy (Served.turn policy lease index highest) (Call.mark lease index highest) :=
  ⟨fun _ _ _ => rfl,fun _ => rfl⟩

/-- Whether nothing has been noted. -/
def IsEarly : Served → Prop
  | begin | locking _ => True
  | noted _ => False

/-- A turn of the note leaves every run but that of the lease. -/
theorem turn_spares (phase : Served) (proper : s.IsProper) :
    (phase.turn policy lease index highest s).Leads (fun t _ => ∀ run, lease.run ≠ some run → Turned.Spares ⟨phase,s,t⟩ run)
      (fun t _ => ∀ run, lease.run ≠ some run → Turned.Spares ⟨phase,s,t⟩ run) := by
  unfold turn
  cases bound : lease.run with
  | none => exact fun run _ => (Turned.idle _ s).spares run
  | some run =>
    cases phase with
    | begin => exact fun other _ => (Turned.idle_askLock _ s _).spares other
    | locking ticket =>
      dsimp only
      split
      · trivial
      · split
        · exact fun _ _ => ⟨rfl,fun _ _ => rfl⟩
        · exact fun other _ => (Turned.idle_unlock _ s _ ticket).spares other
    | noted lastServed =>
      dsimp only
      split
      · exact fun other differs => Turned.spares_signalRun proper _ (fun same => differs (congrArg some same)) false .throttled .running
      · exact fun other _ => (Turned.idle _ s).spares other

/-- A note that finds another run bound, or none, under the lock is given up. -/
theorem turn_stale (phase : Served) (early : phase.IsEarly)
    (stale : ∀ ticket e, phase = .locking ticket → s.locked? lease.entry ticket = some e → e.run ≠ lease.run) :
    (phase.turn policy lease index highest s).Leads (fun t next => next.IsEarly ∧ Turned.IsIdle ⟨phase,s,t⟩)
      (fun t _ => Turned.IsIdle ⟨phase,s,t⟩) := by
  unfold turn
  cases bound : lease.run with
  | none => exact Turned.idle _ s
  | some run =>
    cases phase with
    | begin => exact ⟨trivial,Turned.idle_askLock _ s _⟩
    | locking ticket =>
      dsimp only
      split
      · trivial
      · rename_i e locked
        split
        · rename_i still
          exact absurd (still.trans bound.symm) (stale ticket e rfl locked)
        · exact Turned.idle_unlock _ s _ ticket
    | noted lastServed => exact early.elim

end Served

/-! ### Courses -/

namespace Course

variable {policy : Policy} {conduct : Conduct} {start w : Traffic} {id : RunId} {report : Encoder.Report}
  {stand : Feedback ⊕ Bool} {turns : List (Turned Feedback)}

/-- A report comes to the table. -/
theorem report_reachable (reached : start.Reachable policy conduct) (id : RunId) (report : Encoder.Report) :
    (start.joined (some (.report id report .lookup)) 0).Reachable policy conduct := by
  rw [Traffic.joined,Multiset.add_zero]
  exact reached.tail (.report id report)

/-- A note that a segment was served comes to the table. -/
theorem mark_reachable (reached : start.Reachable policy conduct) {grant : Grant} (held : grant ∈ start.grants)
    (index : Nat) (marked : conduct.marks grant.demand index) (highest : Option Nat) :
    (start.joined (some (.mark grant.lease index highest .begin)) 0).Reachable policy conduct := by
  rw [Traffic.joined,Multiset.add_zero]
  exact reached.tail (.mark grant held index highest marked)

theorem jobs_grow_step {u v : Traffic} (reached : u.Reachable policy conduct) (step : u.Step policy conduct v) :
    u.state.skeleton.jobs <+: v.state.skeleton.jobs := by
  cases step.change (Traffic.sound_of_reachable reached).listed.working with
  | keeps skeleton makers grips => exact skeleton ▸ List.prefix_refl _
  | joins skeleton makers grips idle visits wants given => exact skeleton ▸ List.prefix_refl _
  | parts skeleton makers grips idle => exact skeleton ▸ List.prefix_refl _
  | moves before move covers after makers => exact move.jobs_grow

/-- A report leaves what is noted of the players, and every run but the one that it names. -/
theorem report_spares (reached : start.Reachable policy conduct)
    (course : Course policy conduct (Feedback.turn policy id report) start .lookup w stand turns) :
    ∀ x ∈ turns, x.KeepsNotes ∧ ∀ run, x.before.runNumber? id ≠ some run → x.Spares run := by
  refine (along (Feedback.manages policy id report) (fun _ => True) (fun phase s => phase.Names id s) (fun _ => True)
    ?_ ?_ (report_reachable reached id report) trivial (fun _ none => by cases none) course).2.2.2
  · exact fun u v before step _ => ⟨trivial,fun phase names => names.grow (jobs_grow_step before step)⟩
  · intro phase u before _ names
    have proper := (Traffic.proper_of_reachable before).proper
    exact (phase.turn_names names).and (phase.turn_spares names proper)

/-- A report that is the last one, or whose run has exited when it is recorded, pauses nothing. -/
theorem report_signalsNone (course : Course policy conduct (Feedback.turn policy id report) start .lookup w stand turns)
    (ended : ∀ x ∈ turns, ∀ run lastServed, x.phase = .recording run lastServed →
      report.isLast = true ∨ x.before.hasExited run = true) :
    stand.elim Feedback.IsEarly (· = false) ∧ ∀ x ∈ turns, x.SignalsNone :=
  each Feedback.IsEarly (fun phase _ early ended => phase.turn_records early ended) course trivial ended

/-- A run that has exited when a report of it comes has exited when the report is recorded. -/
theorem report_exited (reached : start.Reachable policy conduct) {run : Nat} (named : start.state.runNumber? id = some run)
    (exited : start.state.hasExited run = true)
    (course : Course policy conduct (Feedback.turn policy id report) start .lookup w stand turns) :
    ∀ x ∈ turns, ∀ run lastServed, x.phase = .recording run lastServed → x.before.hasExited run = true := by
  refine (along (Feedback.manages policy id report)
    (fun u => u.state.runNumber? id = some run ∧ u.state.hasExited run = true) (fun phase s => phase.Names id s)
    (fun _ => True) ?_ ?_ (report_reachable reached id report) ⟨named,exited⟩ (fun _ none => by cases none) course).2.2.2
  · rintro u v before step ⟨named,exited⟩
    have grows := jobs_grow_step before step
    obtain ⟨r,found,_⟩ := State.run_of_runNumber? named
    have sound := Traffic.sound_of_reachable before
    have proper := Traffic.proper_of_reachable before
    exact ⟨⟨State.runNumber?_of_grows grows named,Traffic.exited_step sound proper step found exited⟩,
      fun phase names => names.grow grows⟩
  · rintro phase u _ ⟨named,exited⟩ names
    have here : ∀ run' lastServed, phase = .recording run' lastServed → u.state.hasExited run' = true := by
      rintro run' lastServed rfl
      cases named.symm.trans (names run' rfl)
      exact exited
    exact (phase.turn_names names).mono (fun _ _ names => ⟨names,here⟩) (fun _ _ _ => ⟨trivial,here⟩)

/-- A report of a run that was bound and is not bound any more leaves everything as it is. -/
theorem report_ignored (reached : start.Reachable policy conduct) {run : Nat} (named : start.state.runNumber? id = some run)
    (begun : start.state.HasBegun run) (unbound : ∀ entry, start.state.skeleton.bound? entry ≠ some run)
    (course : Course policy conduct (Feedback.turn policy id report) start .lookup w stand turns) :
    stand ≠ .inr true ∧ ∀ x ∈ turns, x.IsIdle := by
  have arrived := report_reachable reached id report
  have nowhere : BoundOnly start.state.skeleton (start.joined (some (.report id report .lookup)) 0).grips run fun _ => False := by
    obtain ⟨r,found,begun⟩ := begun
    refine ⟨?_,?_,fun entry bound => unbound entry bound⟩
    · simpa [State.skeleton] using (List.getElem?_eq_some_iff.mp found).1
    · intro g among made
      obtain ⟨r',found',idle⟩ := (Traffic.sound_of_reachable arrived).not_begun (Traffic.proper_of_reachable arrived) among made
      cases found.symm.trans found'
      exact idle begun
  suffices all : stand.elim (fun phase => phase.Names id w.state ∧ phase.IsOutside) (· = false) ∧ ∀ x ∈ turns, x.IsIdle by
    refine ⟨?_,all.2⟩
    rintro rfl
    exact absurd all.1 (by simp)
  refine (along (Feedback.manages policy id report)
    (fun u => u.state.runNumber? id = some run ∧ BoundOnly u.state.skeleton u.grips run fun _ => False)
    (fun phase s => phase.Names id s ∧ phase.IsOutside) (· = false) ?_ ?_ arrived ⟨named,nowhere⟩
    ⟨fun _ none => (by cases none),trivial⟩ course).2.2
  · rintro u v before step ⟨named,nowhere⟩
    have grows := jobs_grow_step before step
    exact ⟨⟨State.runNumber?_of_grows grows named,Traffic.boundOnly_step (Traffic.sound_of_reachable before) step nowhere⟩,
      fun phase knows => ⟨knows.1.grow grows,knows.2⟩⟩
  · rintro phase u _ ⟨named,nowhere⟩ ⟨names,outside⟩
    have unbound : ∀ run', phase.run? = some run' → ∀ entry, u.state.skeleton.bound? entry ≠ some run' := by
      intro run' found entry bound
      cases named.symm.trans (names run' found)
      exact nowhere.bound entry bound
    exact ((phase.turn_names names).and (phase.turn_ignored outside unbound)).mono
      (fun _ _ leads => ⟨⟨leads.1,leads.2.1⟩,leads.2.2⟩) (fun _ _ leads => leads.2)

variable {lease : Lease} {index : Nat} {highest : Option Nat} {stands : Served ⊕ Unit} {took : List (Turned Served)}

/-- A note that a segment was served leaves every run but that of its lease. -/
theorem mark_spares (reached : (start.joined (some (.mark lease index highest .begin)) 0).Reachable policy conduct)
    (course : Course policy conduct (Served.turn policy lease index highest) start .begin w stands took) :
    ∀ x ∈ took, ∀ run, lease.run ≠ some run → x.Spares run := by
  refine (along (Served.manages policy lease index highest) (fun _ => True) (fun _ _ => True) (fun _ => True)
    (fun _ _ _ _ _ => ⟨trivial,fun _ _ => trivial⟩) ?_ reached trivial trivial course).2.2.2
  intro phase u before _ _
  exact (phase.turn_spares (Traffic.proper_of_reachable before).proper).mono (fun _ _ spares => ⟨trivial,spares⟩)
    (fun _ _ spares => ⟨trivial,spares⟩)

/-- A note through a lease whose run is not bound when it takes the lock leaves everything as it is. -/
theorem mark_stale (course : Course policy conduct (Served.turn policy lease index highest) start .begin w stands took)
    (stale : ∀ x ∈ took, ∀ ticket e, x.phase = .locking ticket → x.before.locked? lease.entry ticket = some e →
      e.run ≠ lease.run) : ∀ x ∈ took, x.IsIdle :=
  (each Served.IsEarly (fun phase _ early stale => (phase.turn_stale early stale).mono
    (fun _ _ leads => leads) (fun _ _ idle => ⟨trivial,idle⟩)) course trivial stale).2

end Course

namespace Traffic

variable {policy : Policy}

/-- Who comes late does no harm, however others act between his turns. A report leaves what is noted of the players, and
    every run but the one that it names. If that run has begun and is bound no more, the report leaves everything as it
    is; and if the report is the last one, or the run has exited when the report comes or when it is recorded, nothing is
    paused. The note that a segment was served leaves every run but that of its lease; and if that run is not bound when
    the note takes the lock of the entry, it leaves everything as it is. -/
theorem stale_actors_are_inert {start : Traffic} (reached : start.Reachable policy .free) :
    (∀ (id : RunId) (report : Encoder.Report) (w : Traffic) (stand : Feedback ⊕ Bool) (turns : List (Turned Feedback)),
      Course policy .free (Feedback.turn policy id report) start .lookup w stand turns →
      (∀ x ∈ turns, x.KeepsNotes ∧ ∀ run, x.before.runNumber? id ≠ some run → x.Spares run) ∧
      (∀ run, start.state.runNumber? id = some run → start.state.HasBegun run →
        (∀ entry, start.state.skeleton.bound? entry ≠ some run) → stand ≠ .inr true ∧ ∀ x ∈ turns, x.IsIdle) ∧
      (report.isLast = true ∨ (∃ run, start.state.runNumber? id = some run ∧ start.state.hasExited run = true) ∨
        (∀ x ∈ turns, ∀ run lastServed, x.phase = .recording run lastServed → x.before.hasExited run = true) →
        stand ≠ .inr true ∧ ∀ x ∈ turns, x.SignalsNone)) ∧
    ∀ grant ∈ start.grants, ∀ (index : Nat) (highest : Option Nat) (w : Traffic) (stand : Served ⊕ Unit)
      (turns : List (Turned Served)),
      Course policy .free (Served.turn policy grant.lease index highest) start .begin w stand turns →
      (∀ x ∈ turns, ∀ run, grant.lease.run ≠ some run → x.Spares run) ∧
      ((∀ x ∈ turns, ∀ ticket e, x.phase = .locking ticket → x.before.locked? grant.lease.entry ticket = some e →
        e.run ≠ grant.lease.run) → ∀ x ∈ turns, x.IsIdle) := by
  refine ⟨?_,?_⟩
  · intro id report w stand turns course
    refine ⟨Course.report_spares reached course,?_,?_⟩
    · intro run named begun unbound
      exact Course.report_ignored reached named begun unbound course
    · intro given
      have recorded : ∀ x ∈ turns, ∀ run lastServed, x.phase = .recording run lastServed →
          report.isLast = true ∨ x.before.hasExited run = true := by
        intro x member run lastServed recording
        rcases given with last | ⟨run',named,exited⟩ | exited
        · exact .inl last
        · exact .inr (Course.report_exited reached named exited course x member run lastServed recording)
        · exact .inr (exited x member run lastServed recording)
      obtain ⟨unpaused,signalsNone⟩ := Course.report_signalsNone course recorded
      refine ⟨?_,signalsNone⟩
      rintro rfl
      exact absurd unpaused (by simp)
  · intro grant held index highest w stand turns course
    have arrived := Course.mark_reachable reached held index trivial highest
    exact ⟨Course.mark_spares arrived course,Course.mark_stale course⟩

/-- A report of a run waits for the lock of an entry while the run is replaced there: the report is ignored. -/
theorem report_of_replaced_run_is_ignored :
    ∃ (start w : Traffic) (turns : List (Turned Feedback)), start.Reachable (.ofConfig {}) .free ∧
      Course (.ofConfig {}) .free (Feedback.turn (.ofConfig {}) ⟨1⟩ default) start .lookup w (.inr false) turns ∧
      turns.length = 2 ∧ start.state.runNumber? ⟨1⟩ = some 0 ∧ start.state.skeleton.bound? 0 = some 0 ∧
      w.state.skeleton.bound? 0 = some 1 ∧
      ∀ x ∈ turns, x.KeepsNotes ∧ ∀ run, x.before.runNumber? ⟨1⟩ ≠ some run → x.Spares run := by
  have asked : Reachable (.ofConfig {}) .free _ := .tail .refl (.ask { shortFilm with request := .segment 1 } trivial)
  have found := asked.tail (.goesOn _ 0 rfl rfl)
  have entered := found.tail (.goesOn _ 0 rfl rfl)
  have inside := entered.tail (.goesOn _ 0 rfl rfl)
  have unbound := inside.tail (.goesOn _ 0 rfl rfl)
  have rooted := unbound.tail (.goesOn _ 0 rfl rfl)
  have made := rooted.tail (.goesOn _ 0 rfl rfl)
  have served := made.tail (.ends _ 0 rfl rfl)
  have again := served.tail (.ask shortFilm trivial)
  have known := again.tail (.goesOn _ 0 rfl rfl)
  have waits := known.tail (.goesOn _ 0 rfl rfl)
  have comes {u : Traffic} (_ : u.Reachable (.ofConfig {}) .free) :
      Course (.ofConfig {}) .free (Feedback.turn (.ofConfig {}) ⟨1⟩ default) u .lookup u (.inl .lookup) [] := .begins
  have queues := (comes waits).goesOn rfl
  have decided := queues.others (.goesOn _ 0 rfl rfl)
  have taken := decided.others (.goesOn _ 0 rfl rfl)
  have placed := taken.others (.goesOn _ 0 rfl rfl)
  have remade := placed.others (.goesOn _ 0 rfl rfl)
  have replaced := remade.others (.ends _ 0 rfl rfl)
  have ignored := replaced.ends rfl
  exact ⟨_,_,_,waits,ignored,rfl,rfl,rfl,rfl,((stale_actors_are_inert waits).1 ⟨1⟩ default _ _ _ ignored).1⟩

end Traffic
end Playout.Playback
