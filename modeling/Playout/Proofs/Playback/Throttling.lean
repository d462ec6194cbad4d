import Playout.Proofs.Playback.Inert
import Playout.Proofs.Playback.LifeCycle

/-!
Throttling. Reports pause a run that is far enough ahead of its player, and notes of what was served resume it when the
player has caught up. A report learns under the lock of the entry what was served, and decides after it has listed the
directory; what is noted in between is lost on it. So a run is left paused for nothing if a report pauses it late, when
the player has caught up since, and nothing resumes it after that; and in no other way.
-/
namespace Playout.Playback

/-- A run that is played, with what does not change meanwhile: its names, its job, its process and its files. -/
structure Played where
  run : Nat
  entry : Nat
  process : Nat
  job : Encoder.Job
  output : Option (List OutputFile)

namespace Played

/-- What a listing of the directory finds while the process is at work. -/
def available? (x : Played) : Option Available := x.output.map fun files => .ofListing x.job false (files.map (·.name))

/-- The last segment in the directory. -/
def highest (x : Played) : Option Nat := x.available?.bind Available.highest

/-- Whether the run is far enough ahead to be paused, of a player who was served a segment last. -/
def IsAhead (x : Played) (policy : Policy) (lastServed : Option Nat) : Prop :=
  shouldThrottle x.highest lastServed x.job.first policy.throttleAhead = true

instance (x : Played) (policy : Policy) (lastServed : Option Nat) : Decidable (x.IsAhead policy lastServed) :=
  instDecidableEqBool _ true

/-- What was served last of the run. -/
def lastServed (x : Played) (s : State) : Option Nat := (s.noteAt x.entry).served

/-- The run is bound to its entry and is at work or paused, and its process takes signals. -/
structure Plays (x : Played) (isPaused : Bool) (s : State) : Prop where
  named : s.runNumber? x.job.run = some x.run
  owned : s.owners.find? (·.1 == x.run) = some (x.run,x.entry)
  bound : (s.noteAt x.entry).run = some x.run
  goes : ∃ r, s.runs[x.run]? = some r ∧ r.job = x.job ∧ r.output = x.output ∧ r.process = some x.process ∧
    r.stage = stageAfter isPaused
  heeds : ∃ p, s.processes[x.process]? = some p ∧ p.exit = none ∧ p.refusesSignals = false

/-! ### Reports of the run and notes of what was served -/

/-- The traffic, with the signals to the run that were decided on and are not sent: by reports to pause it, and by notes
    to resume it. -/
structure Steering where
  traffic : Traffic
  pausing : Nat := 0
  resuming : Nat := 0

/-- The state of the table. -/
def Steering.state (w : Steering) : State := w.traffic.state

/-- Nobody acts on the run. -/
structure Steering.IsOver (w : Steering) : Prop where
  calls : w.traffic.calls = 0
  pausing : w.pausing = 0
  resuming : w.resuming = 0

/-- A step of those who act on the run: one more report of it comes, one more note that a segment was served through
    a lease of it, or one of them takes a turn. Whoever decides to send a signal sends it in the same turn, or later. -/
inductive Step (policy : Policy) (x : Played) : Steering → Steering → Prop
  | report {w : Steering} (report : Encoder.Report) :
      Step policy x w
        { w with traffic := { w.traffic with calls := .report x.job.run report .lookup ::ₘ w.traffic.calls } }
  | mark {w : Steering} (grant : Grant) (held : grant ∈ w.traffic.grants) (entry : grant.lease.entry = x.entry)
      (run : grant.lease.run = some x.run) (index : Nat) :
      Step policy x w
        { w with traffic := { w.traffic with calls := .mark grant.lease index x.highest .begin ::ₘ w.traffic.calls } }
  | goesOn {w : Steering} (call : Call) (calls : Multiset Call) (going : w.traffic.calls = call ::ₘ calls) {s : State}
      {next : Call} (turned : call.turn policy w.traffic.clock w.state = .goesOn s next) :
      Step policy x w { w with traffic := { w.traffic with state := s, calls := next ::ₘ calls } }
  | ends {w : Steering} (call : Call) (calls : Multiset Call) (going : w.traffic.calls = call ::ₘ calls) {s : State}
      (turned : call.turn policy w.traffic.clock w.state = .ends s none) :
      Step policy x w { w with traffic := { w.traffic with state := s, calls := calls } }
  | decidesToPause {w : Steering} (report : Encoder.Report) (read : Option Nat) (calls : Multiset Call)
      (going : w.traffic.calls = .report x.job.run report (.listed x.run read x.available?) ::ₘ calls)
      (ahead : x.IsAhead policy read) :
      Step policy x w { w with traffic := { w.traffic with calls := calls }, pausing := w.pausing + 1 }
  | pauses {w : Steering} (others : Nat) (decided : w.pausing = others + 1) :
      Step policy x w
        { w with traffic := { w.traffic with state := (w.state.throttle x.run).1 }, pausing := others }
  | decidesToResume {w : Steering} (lease : Lease) (index lastServed : Nat) (calls : Multiset Call)
      (going : w.traffic.calls = .mark lease index x.highest (.noted lastServed) ::ₘ calls)
      (paused : w.state.isThrottled x.run = true) (caught : ¬ x.IsAhead policy (some lastServed)) :
      Step policy x w { w with traffic := { w.traffic with calls := calls }, resuming := w.resuming + 1 }
  | resumes {w : Steering} (others : Nat) (decided : w.resuming = others + 1) :
      Step policy x w
        { w with traffic := { w.traffic with state := (w.state.resume x.run).1 }, resuming := others }

/-- A report pauses the run, in the turn of its decision or later, though the player has caught up with the run since
    the report read what was served. -/
inductive PausesLate (policy : Policy) (x : Played) : Steering → Steering → Prop
  | atOnce {w : Steering} (report : Encoder.Report) (read : Option Nat) (calls : Multiset Call)
      (going : w.traffic.calls = .report x.job.run report (.listed x.run read x.available?) ::ₘ calls) {s : State}
      (turned : (Call.report x.job.run report (.listed x.run read x.available?)).turn policy w.traffic.clock w.state =
        .ends s none)
      (ahead : x.IsAhead policy read) (late : ¬ x.IsAhead policy (x.lastServed w.state)) :
      PausesLate policy x w { w with traffic := { w.traffic with state := s, calls := calls } }
  | afterwards {w : Steering} (others : Nat) (decided : w.pausing = others + 1)
      (late : ¬ x.IsAhead policy (x.lastServed w.state)) :
      PausesLate policy x w
        { w with traffic := { w.traffic with state := (w.state.throttle x.run).1 }, pausing := others }

/-- Whether a report is of the run, and has found what is there. -/
def Reports (x : Played) : Feedback → Prop
  | .lookup => True
  | .locking run entry _ => run = x.run ∧ entry = x.entry
  | .recording run _ | .listing run _ => run = x.run
  | .listed run _ available => run = x.run ∧ available = x.available?

/-- Whether a call is a report of the run, or a note that a segment of it was served. -/
def Concerns (x : Played) : Call → Prop
  | .report id _ phase => id = x.job.run ∧ x.Reports phase
  | .mark lease _ highest _ => lease.entry = x.entry ∧ lease.run = some x.run ∧ highest = x.highest
  | .acquire .. | .bind .. | .cleanUp _ => False

/-- Whether a call is a note that is about to resume the run. -/
def Resumes (x : Played) (policy : Policy) : Call → Prop
  | .mark _ _ _ (.noted lastServed) => ¬ x.IsAhead policy (some lastServed)
  | _ => False

/-- Whether somebody is about to resume the run. -/
def IsDue (x : Played) (policy : Policy) (w : Steering) : Prop :=
  (∃ call ∈ w.traffic.calls, x.Resumes policy call) ∨ 0 < w.resuming

/-! ### How far ahead a run is -/

variable {x : Played} {policy : Policy} {clock : Clock} {s t : State} {isPaused : Bool}

/-- A run that is ahead of a player was ahead of him before. -/
theorem IsAhead.before {n n' : Note} (ahead : x.IsAhead policy n'.served) (before : n.Before n') :
    x.IsAhead policy n.served := by
  unfold IsAhead shouldThrottle at ahead ⊢
  cases produced : x.highest with
  | none =>
    rw [produced] at ahead
    exact ahead
  | some highest =>
    rw [produced] at ahead
    simp only [decide_eq_true_eq] at ahead ⊢
    cases earlier : n.served with
    | none =>
      simp only [Option.getD_none]
      omega
    | some last =>
      obtain ⟨now,later,onward⟩ := before.served last earlier
      simp only [later,Option.getD_some] at ahead ⊢
      omega

/-! ### What the operations do to the run -/

namespace Plays

theorem isThrottled (plays : x.Plays isPaused s) : s.isThrottled x.run = isPaused := by
  obtain ⟨r,found,_,_,process,stage⟩ := plays.goes
  obtain ⟨p,here,alive,_⟩ := plays.heeds
  have shown : s.stageOf r = stageAfter isPaused := by
    simp [State.stageOf,State.processOf?,process,here,alive,Run.shown,stage]
  simp only [State.isThrottled,found,shown]
  cases isPaused <;> rfl

theorem onEntry (plays : x.Plays isPaused s) {f : Entry → Entry} (keeps : ∀ e, (f e).run = e.run) (entry : Nat) :
    x.Plays isPaused (s.onEntry entry f) where
  named := plays.named
  owned := plays.owned
  bound := (State.noteAt_onEntry_part (p := Note.run) (fun e => keeps e) s entry x.entry).trans plays.bound
  goes := plays.goes
  heeds := plays.heeds

theorem askLock (plays : x.Plays isPaused s) (entry : Nat) : x.Plays isPaused (s.askLock entry) := by
  apply plays.onEntry
  exact fun _ => rfl

theorem unlock (plays : x.Plays isPaused s) (entry ticket : Nat) : x.Plays isPaused (s.unlock entry ticket) := by
  apply plays.onEntry
  exact fun _ => rfl

theorem onRun (plays : x.Plays isPaused s) {f : Run → Run} {next : Bool} (job : ∀ r, (f r).job = r.job)
    (output : ∀ r, (f r).output = r.output) (process : ∀ r, (f r).process = r.process)
    (stage : ∀ r, r.stage = stageAfter isPaused → (f r).stage = stageAfter next) : x.Plays next (s.onRun x.run f) where
  named := by
    have jobs : (s.onRun x.run f).skeleton.jobs = s.skeleton.jobs := map_modify_self job s.runs x.run
    rw [State.runNumber?_eq,jobs,← State.runNumber?_eq]
    exact plays.named
  owned := plays.owned
  bound := plays.bound
  goes := by
    obtain ⟨r,found,job',output',process',stage'⟩ := plays.goes
    refine ⟨f r,?_,(job r).trans job',(output r).trans output',(process r).trans process',stage r stage'⟩
    rw [State.onRun,List.getElem?_modify_eq,found]
    rfl
  heeds := plays.heeds

/-- A signal to the process arrives. -/
theorem signal? (plays : x.Plays isPaused s) (pause : Bool) :
    ∃ t, s.signal? (some x.process) pause = some t ∧ x.Plays isPaused t := by
  obtain ⟨p,here,alive,heeds⟩ := plays.heeds
  have inside : x.process < s.processes.length := (List.getElem?_eq_some_iff.mp here).1
  refine ⟨{ s with processes := s.processes.set x.process { p with isPaused := pause } },?_,
    { plays with heeds := ⟨{ p with isPaused := pause },?_,alive,heeds⟩ }⟩
  · simp [State.signal?,Encoder.Process.signal?,here,heeds]
  · exact List.getElem?_set_self inside

/-- After a signal the run is paused, or not, whatever it was before. -/
theorem signalRun (plays : x.Plays isPaused s) (pause : Bool) :
    x.Plays pause (s.signalRun x.run pause (stageBefore pause) (stageAfter pause)).1 := by
  obtain ⟨r,found,_,_,process,stage⟩ := plays.goes
  obtain ⟨t,arrived,plays'⟩ := plays.signal? pause
  by_cases same : isPaused = pause
  · subst same
    have other : r.stage ≠ stageBefore isPaused := by
      rw [stage]
      cases isPaused <;> decide
    simp only [State.signalRun,found,if_neg other]
    exact plays
  · have before : r.stage = stageBefore pause := by
      rw [stage]
      cases isPaused <;> cases pause <;> first | rfl | exact absurd rfl same
    simp only [State.signalRun,found,if_pos before,process,arrived]
    exact plays'.onRun (fun _ => rfl) (fun _ => rfl) (fun _ => rfl) fun _ _ => rfl

theorem throttle (plays : x.Plays isPaused s) : x.Plays true (s.throttle x.run).1 := plays.signalRun true

theorem resume (plays : x.Plays isPaused s) : x.Plays false (s.resume x.run).1 := plays.signalRun false

end Plays

/-! ### Turns -/

theorem lastServed_signalRun (s : State) (pause : Bool) (source target : Stage) :
    x.lastServed (s.signalRun x.run pause source target).1 = x.lastServed s :=
  congrArg Note.served (State.noteAt_of_entries (s.beside_signalRun x.run pause source target).entries x.entry)

/-- A report leaves what was served, and the run as it is, unless it decides to pause it. -/
theorem report_turn {phase : Feedback} (report : Encoder.Report) (reports : x.Reports phase) (plays : x.Plays isPaused s) :
    (phase.turn policy x.job.run report s).Leads
      (fun t next => x.Reports next ∧ x.Plays isPaused t ∧ x.lastServed t = x.lastServed s)
      (fun t _ => x.lastServed t = x.lastServed s ∧ (x.Plays isPaused t ∨
        ∃ read, phase = .listed x.run read x.available? ∧ x.IsAhead policy read ∧ x.Plays true t)) := by
  cases phase with
  | lookup =>
    have found : ((s.runNumber? x.job.run).bind fun run => s.owners.find? (·.1 == run)) = some (x.run,x.entry) := by
      rw [plays.named]
      exact plays.owned
    simp only [Feedback.turn,found]
    exact ⟨⟨rfl,rfl⟩,plays.askLock x.entry,congrArg Note.served (s.noteAt_askLock x.entry x.entry)⟩
  | locking run entry ticket =>
    obtain ⟨rfl,rfl⟩ := reports
    have unlocked := plays.unlock x.entry ticket
    have served : x.lastServed (s.unlock x.entry ticket) = x.lastServed s :=
      congrArg Note.served (s.noteAt_unlock x.entry ticket x.entry)
    unfold Feedback.turn
    dsimp only
    split
    · trivial
    · split
      · exact ⟨rfl,unlocked,served⟩
      · exact ⟨served,.inl unlocked⟩
  | recording run lastServed =>
    obtain rfl := reports
    have recorded := plays.onRun (f := fun r => { r with progress := some report }) (fun _ => rfl) (fun _ => rfl)
      (fun _ => rfl) fun _ stage => stage
    unfold Feedback.turn
    dsimp only
    split
    · exact ⟨rfl,.inl recorded⟩
    · exact ⟨rfl,recorded,rfl⟩
  | listing run lastServed =>
    obtain rfl := reports
    obtain ⟨r,found,job,output,_,_⟩ := plays.goes
    have available : ((s.runs[x.run]?).bind fun r => r.available? false) = x.available? := by
      rw [found,Option.bind_some,Run.available?,job,output]
      rfl
    exact ⟨⟨rfl,available⟩,plays,rfl⟩
  | listed run read available =>
    obtain ⟨rfl,rfl⟩ := reports
    obtain ⟨r,found,job,_,_,_⟩ := plays.goes
    unfold Feedback.turn
    dsimp only
    split
    · rename_i a r' listed found'
      cases found.symm.trans found'
      split
      · rename_i ahead
        have highest : x.highest = a.highest := by rw [highest,listed]; rfl
        have ahead : x.IsAhead policy read := by rw [IsAhead,highest,← job]; exact ahead
        exact ⟨lastServed_signalRun s true .running .throttled,.inr ⟨read,rfl,ahead,plays.throttle⟩⟩
      · exact ⟨rfl,.inl plays⟩
    · exact ⟨rfl,.inl plays⟩

/-- What is noted as served is no less than what was noted before. -/
theorem before_latest (e : Entry) (index : Nat) :
    e.note.Before { e.note with served := some (Served.latest e index) } := by
  refine ⟨Nat.le_refl _,fun last served => ⟨_,rfl,?_⟩⟩
  have served : e.lastServed = some last := served
  simp only [Served.latest,served]
  exact Nat.le_max_left _ _

/-- A note resumes the run if the player has caught up with it, and leaves it as it is otherwise. -/
theorem mark_turn {phase : Served} {lease : Lease} (entry : lease.entry = x.entry) (run : lease.run = some x.run)
    (index : Nat) (plays : x.Plays isPaused s) :
    (phase.turn policy lease index x.highest s).Leads
      (fun t next => x.Plays isPaused t ∧ (∀ n, phase ≠ .noted n) ∧ (x.lastServed t = x.lastServed s ∨
        (x.IsAhead policy (x.lastServed t) → x.IsAhead policy (x.lastServed s)) ∧
          ∃ n, next = .noted n ∧ x.lastServed t = some n))
      (fun t _ => x.lastServed t = x.lastServed s ∧ (x.Plays false t ∨
        x.Plays isPaused t ∧ ∀ n, phase = .noted n → x.IsAhead policy (some n))) := by
  unfold Served.turn
  simp only [run,entry]
  cases phase with
  | begin => exact ⟨plays.askLock x.entry,fun _ => Served.noConfusion,.inl (congrArg Note.served (s.noteAt_askLock x.entry x.entry))⟩
  | locking ticket =>
    have unlocked := plays.unlock x.entry ticket
    dsimp only
    split
    · trivial
    · rename_i e locked
      have found : s.entries[x.entry]? = some e := (Option.filter_eq_some_iff.mp locked).1
      split
      · let t := (s.unlock x.entry ticket).onEntry x.entry fun e => { e with lastServed := some (Served.latest e index) }
        have was : s.noteAt x.entry = e.note := State.noteAt_of_found found
        have now : t.noteAt x.entry = { e.note with served := some (Served.latest e index) } := by
          simp [State.noteAt,t,State.unlock,State.onEntry,List.getElem?_modify_eq,found,Entry.note,Served.latest]
        have played : x.Plays isPaused t := by
          apply unlocked.onEntry
          exact fun _ => rfl
        have caught (ahead : x.IsAhead policy (x.lastServed t)) : x.IsAhead policy (x.lastServed s) := by
          refine ahead.before ?_
          rw [was,now]
          exact before_latest e index
        exact ⟨played,fun _ => Served.noConfusion,.inr ⟨caught,_,rfl,congrArg Note.served now⟩⟩
      · exact ⟨congrArg Note.served (s.noteAt_unlock x.entry ticket x.entry),.inr ⟨unlocked,fun _ => Served.noConfusion⟩⟩
  | noted lastServed =>
    obtain ⟨r,found,job,_,_,_⟩ := plays.goes
    have first : ((s.runs[x.run]?).map (·.job.first)).getD 0 = x.job.first := by
      rw [found,← job]
      rfl
    simp only [first,plays.isThrottled]
    split
    · exact ⟨lastServed_signalRun s false .throttled .running,.inl plays.resume⟩
    · rename_i stays
      refine ⟨rfl,?_⟩
      cases isPaused with
      | false => exact .inl plays
      | true =>
        refine .inr ⟨plays,fun n same => ?_⟩
        cases same
        simpa [IsAhead] using stays

/-- A turn of a report or a note that concerns the run. -/
theorem call_turn {call : Call} (concerns : x.Concerns call) (plays : x.Plays isPaused s) :
    (call.turn policy clock s).Leads
      (fun t next => x.Concerns next ∧ x.Plays isPaused t ∧ ¬ x.Resumes policy call ∧ (x.lastServed t = x.lastServed s ∨
        (x.IsAhead policy (x.lastServed t) → x.IsAhead policy (x.lastServed s)) ∧
          (¬ x.IsAhead policy (x.lastServed t) → x.Resumes policy next)))
      (fun t _ => x.lastServed t = x.lastServed s ∧ (x.Plays false t ∨ x.Plays isPaused t ∧ ¬ x.Resumes policy call ∨
        ∃ report read, call = .report x.job.run report (.listed x.run read x.available?) ∧ x.IsAhead policy read ∧
          x.Plays true t)) := by
  cases call with
  | report id report phase =>
    obtain ⟨rfl,reports⟩ := concerns
    refine (report_turn report reports plays).within ?_ ?_
    · rintro t next ⟨reports,plays,served⟩
      exact ⟨⟨rfl,reports⟩,plays,id,.inl served⟩
    · rintro t _ ⟨served,plays | ⟨read,rfl,ahead,paused⟩⟩
      · exact ⟨served,.inr (.inl ⟨plays,id⟩)⟩
      · exact ⟨served,.inr (.inr ⟨report,read,rfl,ahead,paused⟩)⟩
  | mark lease index highest phase =>
    obtain ⟨entry,run,rfl⟩ := concerns
    refine (mark_turn entry run index plays).within ?_ ?_
    · rintro t next ⟨plays,early,served⟩
      refine ⟨⟨entry,run,rfl⟩,plays,?_,served.imp_right ?_⟩
      · cases phase with
        | noted n => exact absurd rfl (early n)
        | _ => exact id
      · rintro ⟨caught,n,rfl,now⟩
        exact ⟨caught,fun behind => by rwa [now] at behind⟩
    · rintro t _ ⟨served,resumed | ⟨plays,ahead⟩⟩
      · exact ⟨served,.inl resumed⟩
      · refine ⟨served,.inr (.inl ⟨plays,?_⟩)⟩
        cases phase with
        | noted n => exact not_not_intro (ahead n rfl)
        | _ => exact id
  | _ => exact concerns.elim

/-! ### Steps -/

/-- What a step makes of a run that is paused or not: whether it is paused then. -/
inductive Moves (policy : Policy) (x : Played) (w w' : Steering) (isPaused : Bool) : Bool → Prop
  | keeps (served : x.lastServed w'.state = x.lastServed w.state) (due : x.IsDue policy w → x.IsDue policy w') :
      Moves policy x w w' isPaused isPaused
  | notes (caught : x.IsAhead policy (x.lastServed w'.state) → x.IsAhead policy (x.lastServed w.state))
      (due : ¬ x.IsAhead policy (x.lastServed w'.state) → x.IsDue policy w') : Moves policy x w w' isPaused isPaused
  | resumes (served : x.lastServed w'.state = x.lastServed w.state) : Moves policy x w w' isPaused false
  | pauses (served : x.lastServed w'.state = x.lastServed w.state)
      (timely : x.IsAhead policy (x.lastServed w.state) ∨ PausesLate policy x w w') : Moves policy x w w' isPaused true

variable {w w' start : Steering}

theorem Moves.before {next : Bool} (moves : Moves policy x w w' isPaused next)
    (ahead : x.IsAhead policy (x.lastServed w'.state)) : x.IsAhead policy (x.lastServed w.state) := by
  cases moves with
  | notes caught _ => exact caught ahead
  | keeps served _ | resumes served | pauses served _ => exact served ▸ ahead

/-- All calls of the traffic act on the run. -/
def AllConcern (x : Played) (w : Steering) : Prop := ∀ call ∈ w.traffic.calls, x.Concerns call

/-- One who is about to resume the run is still about to when another call is over. -/
theorem isDue_of_over {call : Call} {calls : Multiset Call} (going : w.traffic.calls = call ::ₘ calls)
    (early : ¬ x.Resumes policy call) (left : calls ≤ w'.traffic.calls) (same : w.resuming ≤ w'.resuming)
    (due : x.IsDue policy w) : x.IsDue policy w' := by
  rcases due with ⟨c,member,resumes⟩ | waits
  · rw [going,Multiset.mem_cons] at member
    rcases member with rfl | other
    · exact absurd resumes early
    · exact .inl ⟨c,Multiset.mem_of_le left other,resumes⟩
  · exact .inr (waits.trans_le same)

theorem step_moves (step : Step policy x w w') (concerned : x.AllConcern w) (plays : x.Plays isPaused w.state) :
    x.AllConcern w' ∧ ∃ next, x.Plays next w'.state ∧ Moves policy x w w' isPaused next := by
  have comes {call : Call} (concerns : x.Concerns call) :
      x.AllConcern { w with traffic := { w.traffic with calls := call ::ₘ w.traffic.calls } } ∧ ∃ next,
        x.Plays next w.state ∧
        Moves policy x w { w with traffic := { w.traffic with calls := call ::ₘ w.traffic.calls } } isPaused next := by
    refine ⟨Multiset.forall_mem_cons.mpr ⟨concerns,concerned⟩,isPaused,plays,.keeps rfl ?_⟩
    rintro (⟨c,member,resumes⟩ | waits)
    · exact .inl ⟨c,Multiset.mem_cons_of_mem member,resumes⟩
    · exact .inr waits
  have others {call : Call} {calls : Multiset Call} (going : w.traffic.calls = call ::ₘ calls) :
      x.Concerns call ∧ ∀ c ∈ calls, x.Concerns c := by
    rw [AllConcern,going] at concerned
    exact Multiset.forall_mem_cons.mp concerned
  cases step with
  | report report => exact comes ⟨rfl,trivial⟩
  | mark grant _ entry run index => exact comes ⟨entry,run,rfl⟩
  | @goesOn call calls going t next turned =>
    obtain ⟨concerns,rest⟩ := others going
    have leads : (call.turn policy w.traffic.clock w.state).Leads _ _ := call_turn concerns plays
    rw [turned] at leads
    obtain ⟨concerns',plays',early,moved⟩ := leads
    refine ⟨Multiset.forall_mem_cons.mpr ⟨concerns',rest⟩,isPaused,plays',?_⟩
    rcases moved with served | ⟨caught,due⟩
    · exact .keeps served (isDue_of_over going early (Multiset.le_cons_self calls next) le_rfl)
    · exact .notes caught fun behind => .inl ⟨next,Multiset.mem_cons_self next calls,due behind⟩
  | @ends call calls going t turned =>
    obtain ⟨concerns,rest⟩ := others going
    have leads : (call.turn policy w.traffic.clock w.state).Leads _ _ := call_turn concerns plays
    rw [turned] at leads
    refine ⟨rest,?_⟩
    obtain ⟨served,resumed | ⟨plays',early⟩ | ⟨report,read,rfl,ahead,paused⟩⟩ := leads
    · exact ⟨false,resumed,.resumes served⟩
    · exact ⟨isPaused,plays',.keeps served (isDue_of_over going early le_rfl le_rfl)⟩
    · refine ⟨true,paused,.pauses served ?_⟩
      by_cases still : x.IsAhead policy (x.lastServed w.state)
      · exact .inl still
      · exact .inr (.atOnce report read calls going turned ahead still)
  | decidesToPause report read calls going ahead =>
    exact ⟨(others going).2,isPaused,plays,.keeps rfl (isDue_of_over going id le_rfl le_rfl)⟩
  | pauses others decided =>
    refine ⟨concerned,true,plays.throttle,.pauses (lastServed_signalRun w.state true .running .throttled) ?_⟩
    by_cases still : x.IsAhead policy (x.lastServed w.state)
    · exact .inl still
    · exact .inr (.afterwards others decided still)
  | decidesToResume lease index lastServed calls going paused caught =>
    exact ⟨(others going).2,isPaused,plays,.keeps rfl fun _ => .inr (Nat.succ_pos w.resuming)⟩
  | resumes others decided =>
    exact ⟨concerned,false,plays.resume,.resumes (lastServed_signalRun w.state false .throttled .running)⟩

/-- A report that pauses the run late is one of those who act on it, and the run is paused then. -/
theorem PausesLate.step (late : PausesLate policy x w w') : Step policy x w w' := by
  cases late with
  | atOnce report read calls going turned => exact .ends _ calls going turned
  | afterwards others decided => exact .pauses others decided

theorem PausesLate.behind (late : PausesLate policy x w w') : ¬ x.IsAhead policy (x.lastServed w.state) := by
  cases late with
  | atOnce _ _ _ _ _ _ behind | afterwards _ _ behind => exact behind

theorem PausesLate.isThrottled (late : PausesLate policy x w w') (plays : x.Plays isPaused w.state) :
    w'.state.isThrottled x.run = true := by
  have paused := plays.throttle.isThrottled
  cases late with
  | afterwards others decided => exact paused
  | atOnce report read calls _ turned ahead =>
    obtain ⟨r,found,job,_,_,_⟩ := plays.goes
    have decided : (Call.report x.job.run report (.listed x.run read x.available?)).turn policy w.traffic.clock w.state =
        .ends (w.state.throttle x.run).1 none := by
      cases listed : x.available? with
      | none =>
        rw [IsAhead,highest,listed] at ahead
        cases ahead
      | some a =>
        have ahead : shouldThrottle a.highest read r.job.first policy.throttleAhead = true := by
          rw [IsAhead,highest,listed,← job] at ahead
          exact ahead
        simp only [Call.turn,Feedback.turn,found,if_pos ahead]
        rfl
    rw [decided] at turned
    cases turned
    exact paused

/-! ### Histories -/

/-- The run is paused, in a history of reports and notes, only if it is ahead of its player, or somebody is about to
    resume it, or a report has paused it late and nothing has resumed it since. -/
theorem paused_of_history {R : Steering → Steering → Prop} (steps : ∀ u v, R u v → Step policy x u v)
    (idle : start.traffic.calls = 0) (plays : x.Plays false start.state) (history : Relation.ReflTransGen R start w) :
    x.AllConcern w ∧ ∃ isPaused, x.Plays isPaused w.state ∧ (isPaused = true →
      x.IsAhead policy (x.lastServed w.state) ∨ x.IsDue policy w ∨
      ∃ u v, Relation.ReflTransGen R start u ∧ R u v ∧ PausesLate policy x u v ∧
        Relation.ReflTransGen (fun u v => R u v ∧ v.state.isThrottled x.run = true) v w) := by
  induction history with
  | refl =>
    refine ⟨fun call member => ?_,false,plays,nofun⟩
    rw [idle] at member
    exact absurd member (Multiset.notMem_zero call)
  | @tail u v earlier step ih =>
    obtain ⟨concerned,isPaused,playing,known⟩ := ih
    obtain ⟨concerned',next,playing',moves⟩ := step_moves (steps u v step) concerned playing
    refine ⟨concerned',next,playing',fun paused => ?_⟩
    subst paused
    cases moves with
    | keeps served due =>
      rcases known rfl with ahead | waits | ⟨u',v',before,pauses,late,since⟩
      · exact .inl (served ▸ ahead)
      · exact .inr (.inl (due waits))
      · exact .inr (.inr ⟨u',v',before,pauses,late,since.tail ⟨step,playing'.isThrottled⟩⟩)
    | notes caught due =>
      by_cases ahead : x.IsAhead policy (x.lastServed v.state)
      · exact .inl ahead
      · exact .inr (.inl (due ahead))
    | pauses served timely =>
      rcases timely with ahead | late
      · exact .inl (served ▸ ahead)
      · exact .inr (.inr ⟨u,v,earlier,step,late,.refl⟩)

/-- A player who has caught up with the run stays so. -/
theorem ahead_before {isPaused : Bool} (concerned : x.AllConcern w) (plays : x.Plays isPaused w.state)
    (history : Relation.ReflTransGen (Step policy x) w w') (ahead : x.IsAhead policy (x.lastServed w'.state)) :
    x.IsAhead policy (x.lastServed w.state) := by
  induction history using Relation.ReflTransGen.head_induction_on generalizing isPaused with
  | refl => exact ahead
  | head step _ ih =>
    obtain ⟨concerned',_,plays',moves⟩ := step_moves step concerned plays
    exact moves.before (ih concerned' plays')

theorem not_isDue_of_isOver (ended : w.IsOver) : ¬ x.IsDue policy w := by
  rintro (⟨call,member,_⟩ | waits)
  · rw [ended.calls] at member
    exact Multiset.notMem_zero call member
  · exact absurd ended.resuming waits.ne'

/-- Any number of reports of a run come, and any number of notes that segments of it were served, and they take their
    turns in any order; the run is at work before them, its files stay as they are and its process takes signals. When
    all of them are over, the run is paused for nothing, with a player who has caught up with it, just if some report
    paused it late and nothing has resumed it since. So where no report pauses it late, the run is paused only if it is
    as far ahead as the policy says, by what is on the disk and what was served last. -/
theorem paused_for_nothing_iff (idle : start.IsOver) (plays : x.Plays false start.state) :
    (∀ w : Steering, Relation.ReflTransGen (fun u v => Step policy x u v ∧ ¬ PausesLate policy x u v) start w → w.IsOver →
      w.state.isThrottled x.run = true → x.IsAhead policy (x.lastServed w.state)) ∧
    ∀ w : Steering, Relation.ReflTransGen (Step policy x) start w → w.IsOver →
      (w.state.isThrottled x.run = true ∧ ¬ x.IsAhead policy (x.lastServed w.state) ↔
        ∃ u v, Relation.ReflTransGen (Step policy x) start u ∧ PausesLate policy x u v ∧
          Relation.ReflTransGen (fun u v => Step policy x u v ∧ v.state.isThrottled x.run = true) v w) := by
  constructor
  · intro w history ended paused
    obtain ⟨_,isPaused,playing,known⟩ := paused_of_history (fun _ _ step => step.1) idle.calls plays history
    rcases known (playing.isThrottled.symm.trans paused) with ahead | waits | ⟨_,_,_,step,late,_⟩
    · exact ahead
    · exact absurd waits (not_isDue_of_isOver ended)
    · exact absurd late step.2
  · intro w history ended
    constructor
    · rintro ⟨paused,caught⟩
      obtain ⟨_,isPaused,playing,known⟩ := paused_of_history (fun _ _ step => step) idle.calls plays history
      rcases known (playing.isThrottled.symm.trans paused) with ahead | waits | ⟨u,v,before,_,late,since⟩
      · exact absurd ahead caught
      · exact absurd waits (not_isDue_of_isOver ended)
      · exact ⟨u,v,before,late,since⟩
    · rintro ⟨u,v,before,late,since⟩
      obtain ⟨concerned,isPaused,playing,_⟩ := paused_of_history (fun _ _ step => step) idle.calls plays before
      have later := Relation.ReflTransGen.head late.step (Relation.ReflTransGen.mono (fun _ _ step => step.1) v w since)
      refine ⟨?_,fun ahead => late.behind (ahead_before concerned playing later ahead)⟩
      rcases Relation.ReflTransGen.cases_tail since with same | ⟨_,_,last⟩
      · exact same ▸ late.isThrottled playing
      · exact last.2

/-- The first segment of a film of three segments. -/
def threeSegments : Demand :=
  { Traffic.firstRequest with rendering := { Traffic.firstRequest.rendering with starts := [0,10,20] } }

/-- The second segment of the film. -/
def secondSegment : Demand := { threeSegments with request := .segment 1 }

/-- The lease for that segment. -/
def secondGrant : Grant := ⟨secondSegment,⟨0,some 0,none⟩⟩

/-- A run may be one segment ahead. -/
def tight : Policy := { Policy.ofConfig {} with throttleAhead := 1 }

/-- What the run has written. -/
def written : List OutputFile := ["stream0_0.m4s","stream0_1.m4s","stream0_2.m4s"].map fun name => ⟨name,[]⟩

/-- The film was asked for up to its second segment, and all of it was written. A report finds that nothing was served;
    while it lists the directory, it is noted that the second segment was. Then the report pauses the run. -/
theorem lost_note : ∃ (start w : Steering) (x : Played), start.traffic.Reachable tight .free ∧ start.IsOver ∧
    x.Plays false start.state ∧ Relation.ReflTransGen (Step tight x) start w ∧ w.IsOver ∧
    w.state.isThrottled x.run = true ∧ x.highest = some 2 ∧ x.lastServed w.state = some 1 ∧
    ¬ x.IsAhead tight (x.lastServed w.state) := by
  have asked : Traffic.Reachable tight .free _ := .tail .refl (.ask threeSegments trivial)
  have found := asked.tail (.goesOn _ 0 rfl rfl)
  have entered := found.tail (.goesOn _ 0 rfl rfl)
  have inside := entered.tail (.goesOn _ 0 rfl rfl)
  have unbound := inside.tail (.goesOn _ 0 rfl rfl)
  have rooted := unbound.tail (.goesOn _ 0 rfl rfl)
  have made := rooted.tail (.goesOn _ 0 rfl rfl)
  have served := made.tail (.ends _ 0 rfl rfl)
  have again := served.tail (.ask secondSegment trivial)
  have known := again.tail (.goesOn _ 0 rfl rfl)
  have entered := known.tail (.goesOn _ 0 rfl rfl)
  have reused := entered.tail (.ends _ 0 rfl rfl)
  have wrote := reused.tail (.happen (.files 0 (some written)))
  have begins {u : Traffic} {r : Run} (_ : u.Reachable tight .free) (_ : u.state.runs[0]? = some r) :
      Relation.ReflTransGen (Step tight ⟨0,0,0,r.job,r.output⟩) { traffic := u } { traffic := u } := .refl
  have reports := (begins wrote rfl).tail (.report default)
  have queues := reports.tail (.goesOn _ 0 rfl rfl)
  have reads := queues.tail (.goesOn _ 0 rfl rfl)
  have records := reads.tail (.goesOn _ 0 rfl rfl)
  have lists := records.tail (.goesOn _ 0 rfl rfl)
  have held {others : Multiset Grant} : secondGrant ∈ {secondGrant} + others :=
    Multiset.mem_add.mpr (.inl (Multiset.mem_singleton_self secondGrant))
  have marks := lists.tail (.mark secondGrant held rfl rfl 1)
  have waits := marks.tail (.goesOn _ (.report _ default (.listed 0 none _) ::ₘ 0) rfl rfl)
  have notes := waits.tail (.goesOn _ (.report _ default (.listed 0 none _) ::ₘ 0) rfl rfl)
  have leaves := notes.tail (.ends _ (.report _ default (.listed 0 none _) ::ₘ 0) rfl rfl)
  have pauses := leaves.tail (.ends _ 0 rfl rfl)
  refine ⟨{ traffic := _ },_,_,wrote,⟨rfl,rfl,rfl⟩,?_,pauses,⟨rfl,rfl,rfl⟩,rfl,?_,rfl,?_⟩
  · exact ⟨rfl,rfl,rfl,⟨_,rfl,rfl,rfl,rfl,rfl⟩,⟨_,rfl,rfl,rfl⟩⟩
  · decide +kernel
  · decide +kernel

/-- The run of that history was paused late. -/
theorem late_report_pauses_film : ∃ (start w : Steering) (x : Played), start.IsOver ∧ x.Plays false start.state ∧
    Relation.ReflTransGen (Step tight x) start w ∧ w.IsOver ∧
    ∃ u v, Relation.ReflTransGen (Step tight x) start u ∧ PausesLate tight x u v ∧
      Relation.ReflTransGen (fun u v => Step tight x u v ∧ v.state.isThrottled x.run = true) v w := by
  obtain ⟨start,w,x,_,idle,plays,history,ended,paused,_,_,caught⟩ := lost_note
  exact ⟨start,w,x,idle,plays,history,ended,((paused_for_nothing_iff idle plays).2 w history ended).mp ⟨paused,caught⟩⟩

/-- One report and one note are over, the run is paused, and it is not ahead of the player, who was served the last
    segment but one. -/
theorem paused_with_player_caught_up : ∃ (start w : Steering) (x : Played), start.traffic.Reachable tight .free ∧
    start.IsOver ∧ x.Plays false start.state ∧ Relation.ReflTransGen (Step tight x) start w ∧ w.IsOver ∧
    x.highest = some 2 ∧ x.lastServed w.state = some 1 ∧
    ¬ (w.state.isThrottled x.run = true → x.IsAhead tight (x.lastServed w.state)) := by
  obtain ⟨start,w,x,reached,idle,plays,history,ended,paused,highest,served,caught⟩ := lost_note
  exact ⟨start,w,x,reached,idle,plays,history,ended,highest,served,fun claimed => caught (claimed paused)⟩

end Played
end Playout.Playback
