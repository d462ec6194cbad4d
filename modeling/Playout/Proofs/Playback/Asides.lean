import Playout.Proofs.Playback.Notes

/-!
What goes on beside those who ask for sessions: segments are marked as served, encoders
report, leases are given back, tasks go on, processes end and files change. All of this
leaves the sessions as they are (`State.SameSessions`): which entries there are, which
run is bound where, and what was asked for last. No run is made, started or destroyed,
and one that has exited stays so.
-/
namespace Playout.Playback

namespace State

theorem callsOf_onEntry {f : Entry → Entry} (calls : ∀ e, (f e).calls = e.calls) (s : State) (entry other : Nat) :
    Bind.callsOf (s.onEntry entry f) other = Bind.callsOf s other := by
  simp only [Bind.callsOf,onEntry,List.getElem?_modify]
  cases s.entries[other]? with
  | none => rfl
  | some e => by_cases same : entry = other <;> simp [same,calls]

/-- Nothing becomes of the sessions. -/
structure SameSessions (s t : State) : Prop where
  table : t.table = s.table
  launches : t.launches = s.launches
  jobs : t.skeleton.jobs = s.skeleton.jobs
  destroyed : t.skeleton.destroyed = s.skeleton.destroyed
  run : ∀ entry, (t.noteAt entry).run = (s.noteAt entry).run
  requested : ∀ entry, (t.noteAt entry).requested = (s.noteAt entry).requested
  calls : ∀ entry, Bind.callsOf t entry = Bind.callsOf s entry
  exited : ∀ run, s.hasExited run = true → t.hasExited run = true

namespace SameSessions

variable {s t u : State}

theorem of_same (table : t.table = s.table) (launches : t.launches = s.launches) (entries : t.entries = s.entries)
    (runs : t.runs = s.runs) (processes : t.processes = s.processes) : s.SameSessions t where
  table := table
  launches := launches
  jobs := by simp only [skeleton,runs]
  destroyed := by simp only [skeleton,runs]
  run entry := by rw [noteAt_of_entries entries]
  requested entry := by rw [noteAt_of_entries entries]
  calls entry := by rw [Bind.callsOf,Bind.callsOf,entries]
  exited run exited := by
    rw [← exited]
    simp only [hasExited,stageOf,processOf?,runs,processes]

theorem refl (s : State) : s.SameSessions s := .of_same rfl rfl rfl rfl rfl

theorem trans (first : s.SameSessions t) (second : t.SameSessions u) : s.SameSessions u where
  table := second.table.trans first.table
  launches := second.launches.trans first.launches
  jobs := second.jobs.trans first.jobs
  destroyed := second.destroyed.trans first.destroyed
  run entry := (second.run entry).trans (first.run entry)
  requested entry := (second.requested entry).trans (first.requested entry)
  calls entry := (second.calls entry).trans (first.calls entry)
  exited run exited := second.exited run (first.exited run exited)

theorem onEntry {f : Entry → Entry} (run : ∀ e, (f e).run = e.run) (requested : ∀ e, (f e).lastRequested = e.lastRequested)
    (calls : ∀ e, (f e).calls = e.calls) (s : State) (entry : Nat) : s.SameSessions (s.onEntry entry f) where
  table := rfl
  launches := rfl
  jobs := rfl
  destroyed := rfl
  run other := noteAt_onEntry_part run s entry other
  requested other := noteAt_onEntry_part requested s entry other
  calls other := callsOf_onEntry calls s entry other
  exited _ exited := exited

theorem askLock (s : State) (entry : Nat) : s.SameSessions (s.askLock entry) := by
  apply onEntry <;> exact fun _ => rfl

theorem unlock (s : State) (entry ticket : Nat) : s.SameSessions (s.unlock entry ticket) := by
  apply onEntry <;> exact fun _ => rfl

theorem hold (s : State) (entry : Nat) : s.SameSessions (s.hold entry) := by
  apply onEntry <;> exact fun _ => rfl

theorem letGo (s : State) (clock : Clock) (entry : Nat) : s.SameSessions (s.letGo clock entry) := by
  apply onEntry <;> exact fun _ => rfl

theorem approach (s : State) (entry : Nat) : s.SameSessions ((s.hold entry).askLock entry) :=
  (hold s entry).trans (askLock _ entry)

/-- Runs and processes go on: no run comes back that has exited. -/
theorem onRuns (table : t.table = s.table) (launches : t.launches = s.launches) (entries : t.entries = s.entries)
    (jobs : t.skeleton.jobs = s.skeleton.jobs) (destroyed : t.skeleton.destroyed = s.skeleton.destroyed)
    (stages : ∀ (run : Nat) (r : Run), t.runs[run]? = some r →
      ∃ r', s.runs[run]? = some r' ∧ r.process = r'.process ∧ (r'.stage = .exited → r.stage = .exited))
    (exits : ∀ (process : Nat) (p : Encoder.Process), s.processes[process]? = some p → p.exit.isSome = true →
      ∃ p', t.processes[process]? = some p' ∧ p'.exit.isSome = true) : s.SameSessions t where
  table := table
  launches := launches
  jobs := jobs
  destroyed := destroyed
  run entry := by rw [noteAt_of_entries entries]
  requested entry := by rw [noteAt_of_entries entries]
  calls entry := by rw [Bind.callsOf,Bind.callsOf,entries]
  exited run exited := by
    unfold hasExited at exited ⊢
    cases found : t.runs[run]? with
    | none => rfl
    | some r =>
      obtain ⟨r',found',same,stays⟩ := stages run r found
      simp only [found',beq_iff_eq,stageOf,Run.shown] at exited ⊢
      split at exited
      · rename_i ended
        obtain ⟨exit,ended⟩ := Option.isSome_iff_exists.mp ended
        obtain ⟨p,at_run,ended⟩ := Option.bind_eq_some_iff.mp ended
        obtain ⟨process,has,at_process⟩ := Option.bind_eq_some_iff.mp at_run
        obtain ⟨p',at_process',ended'⟩ := exits process p at_process (by rw [ended]; rfl)
        have here : t.processOf? r = some p' := by rw [processOf?,same,has]; exact at_process'
        rw [here,Option.bind_some,if_pos ended']
      · split
        · rfl
        · exact stays exited

theorem onRun {f : Run → Run} (job : ∀ r, (f r).job = r.job) (destroyed : ∀ r, (f r).isDestroyed = r.isDestroyed)
    (process : ∀ r, (f r).process = r.process) (stage : ∀ r, r.stage = .exited → (f r).stage = .exited) (s : State)
    (run : Nat) : s.SameSessions (s.onRun run f) := by
  refine .onRuns rfl rfl rfl (congrArg Skeleton.jobs (s.skeleton_onRun job destroyed run))
    (congrArg Skeleton.destroyed (s.skeleton_onRun job destroyed run)) ?_ (fun _ p found ended => ⟨p,found,ended⟩)
  intro other r found
  rw [State.onRun,List.getElem?_modify] at found
  obtain ⟨r',found',rfl⟩ := Option.map_eq_some_iff.mp found
  refine ⟨r',found',?_⟩
  by_cases same : run = other
  · rw [if_pos same]
    exact ⟨process r',stage r'⟩
  · rw [if_neg same]
    exact ⟨rfl,id⟩

theorem onProcess {f : Encoder.Process → Encoder.Process} (exit : ∀ p, p.exit.isSome = true → (f p).exit.isSome = true)
    (s : State) (process : Nat) : s.SameSessions { s with processes := s.processes.modify process f } := by
  refine .onRuns rfl rfl rfl rfl rfl (fun _ r found => ⟨r,found,rfl,id⟩) ?_
  intro other p found ended
  rw [List.getElem?_modify,found]
  refine ⟨_,rfl,?_⟩
  split
  · exact exit p ended
  · exact ended

/-- A run that is signalled has not exited. -/
theorem signalRun {source target : Stage} (lives : source ≠ .exited) (s : State) (run : Nat) (pause : Bool) :
    s.SameSessions (s.signalRun run pause source target).1 := by
  unfold State.signalRun
  split
  · exact .refl s
  · rename_i r found
    split
    · rename_i at_source
      split
      · rename_i u sent
        simp only [signal?,Option.bind_eq_bind,Option.bind_eq_some_iff] at sent
        obtain ⟨number,_,p,at_process,p',taken,same⟩ := sent
        cases same
        have exit : p'.exit = p.exit := by
          unfold Encoder.Process.signal? at taken
          split at taken
          · cases taken
          · cases taken
            rfl
        let moved (r : Run) : Run := { r with stage := target }
        refine .onRuns rfl rfl rfl (map_modify_self (p := fun r : Run => r.job) (f := moved) (fun _ => rfl) s.runs run)
          (map_modify_self (p := fun r : Run => r.isDestroyed) (f := moved) (fun _ => rfl) s.runs run) ?_ ?_
        · intro other r' found'
          have found' : (s.runs.modify run moved)[other]? = some r' := found'
          rw [List.getElem?_modify] at found'
          obtain ⟨old,here,rfl⟩ := Option.map_eq_some_iff.mp found'
          refine ⟨old,here,?_⟩
          by_cases same : run = other
          · subst same
            cases found.symm.trans here
            rw [if_pos rfl]
            exact ⟨rfl,fun exited => absurd (at_source.symm.trans exited) lives⟩
          · rw [if_neg same]
            exact ⟨rfl,id⟩
        · intro other q found' ended
          have processes : ∃ q', (s.processes.set number p')[other]? = some q' ∧ q'.exit.isSome = true := by
            rw [List.getElem?_set]
            split
            · rename_i same
              subst same
              cases at_process.symm.trans found'
              exact ⟨p',by simp [(List.getElem?_eq_some_iff.mp found').1],by rw [exit]; exact ended⟩
            · exact ⟨q,found',ended⟩
          exact processes
      · exact .refl s
    · exact .refl s

theorem noteExit (s : State) (run : Nat) : s.SameSessions (Teardown.noteExit s run) :=
  onRun (f := fun r => { r with stage := .exited }) (fun _ => rfl) (fun _ => rfl) (fun _ => rfl) (fun _ _ => rfl) s run

theorem removeOutput (s : State) (run : Nat) : s.SameSessions (s.removeOutput run) := by
  apply onRun
  case stage =>
    intro r exited
    split <;> exact exited
  all_goals exact fun _ => by split <;> rfl

theorem teardown (clock : Clock) (run : Nat) (phase : Teardown) (s : State) :
    (phase.turn clock run s).Leads (fun t _ => s.SameSessions t) (fun t _ => s.SameSessions t) := by
  cases phase with
  | start =>
    unfold Teardown.turn
    dsimp only
    split
    · exact noteExit s run
    · exact onProcess (f := fun p => { p with terminations := p.terminations + 1 }) (fun _ ended => ended) s _
  | terminating process wake =>
    unfold Teardown.turn
    dsimp only
    split
    · trivial
    · refine trans (onProcess (f := Encoder.Process.terminate) ?_ s process) (noteExit _ run)
      intro p ended
      unfold Encoder.Process.terminate
      split
      · exact ended
      · rfl
  | clearing => exact removeOutput s run

/-- A task that is no retirement leaves the sessions as they are. -/
theorem task (clock : Clock) {task : Task} (other : task.isRetirement = false) (s : State) :
    (task.turn clock s).Leads (fun t _ => s.SameSessions t) (fun t _ => s.SameSessions t) := by
  cases task with
  | watch run process =>
    unfold Task.turn
    dsimp only
    split
    · exact noteExit s run
    · trivial
  | teardown run phase => exact (teardown clock run phase s).within (fun _ _ same => same) (fun _ _ same => same)
  | retirement entry phase => cases other
  | _ => trivial

theorem taskTurn {clock : Clock} {number : Nat} (working : s.skeleton.isShuttingDown = false)
    (turned : s.taskTurn? clock number = some t) : s.SameSessions t := by
  obtain ⟨_,u,_,_,same,rfl⟩ := taskTurn?_leads (fun _ u _ => s.SameSessions u) turned fun task here =>
    SameSessions.task clock (other_of_working working here) s
  exact same.trans (.of_same rfl rfl rfl rfl rfl)

theorem event (event : Event) (s : State) : s.SameSessions (event.apply s) := by
  cases event with
  | exit process how => exact onProcess (fun _ _ => rfl) s process
  | refuseSignals process refuses =>
    exact onProcess (f := fun p => { p with refusesSignals := refuses }) (fun _ ended => ended) s process
  | files run output =>
    exact onRun (f := fun r => { r with output := output }) (fun _ => rfl) (fun _ => rfl) (fun _ => rfl)
      (fun _ exited => exited) s run
  | _ => exact .of_same rfl rfl rfl rfl rfl

end SameSessions
end State

/-! ### Calls -/

/-- Whether a call asks for no session and cleans none up. -/
def Call.IsAside : Call → Prop
  | mark .. | report .. => True
  | acquire .. | bind .. | cleanUp _ => False

variable {policy : Policy} {clock : Clock} {s : State}

theorem Served.turn_same (phase : Served) (lease : Lease) (index : Nat) (highest : Option Nat) :
    (phase.turn policy lease index highest s).Leads (fun t _ => s.SameSessions t) (fun t _ => s.SameSessions t) := by
  unfold turn
  cases lease.run with
  | none => exact .refl s
  | some run =>
    cases phase with
    | begin => exact .askLock s lease.entry
    | locking ticket =>
      have freed : s.SameSessions (s.unlock lease.entry ticket) := .unlock s lease.entry ticket
      dsimp only
      split
      · trivial
      · split
        · refine freed.trans ?_
          apply State.SameSessions.onEntry <;> exact fun _ => rfl
        · exact freed
    | noted lastServed =>
      dsimp only
      split
      · exact .signalRun (by decide) s run false
      · exact .refl s

theorem Feedback.turn_same (phase : Feedback) (id : RunId) (report : Encoder.Report) :
    (phase.turn policy id report s).Leads (fun t _ => s.SameSessions t) (fun t _ => s.SameSessions t) := by
  cases phase with
  | lookup =>
    unfold turn
    dsimp only
    split
    · exact .refl s
    · exact .askLock s _
  | locking run entry ticket =>
    have freed : s.SameSessions (s.unlock entry ticket) := .unlock s entry ticket
    unfold turn
    dsimp only
    split
    · trivial
    · split <;> exact freed
  | recording run lastServed =>
    have recorded : s.SameSessions (s.onRun run fun r => { r with progress := some report }) :=
      .onRun (f := fun r => { r with progress := some report }) (fun _ => rfl) (fun _ => rfl) (fun _ => rfl)
        (fun _ exited => exited) s run
    unfold turn
    dsimp only
    split <;> exact recorded
  | listing run lastServed => exact .refl s
  | listed run lastServed available =>
    unfold turn
    dsimp only
    split
    · split
      · exact .signalRun (by decide) s run true
      · exact .refl s
    · exact .refl s

theorem Call.turn_same {call : Call} (aside : call.IsAside) :
    (call.turn policy clock s).Leads (fun t next => s.SameSessions t ∧ next.IsAside)
      (fun t given => s.SameSessions t ∧ given = none) := by
  cases call with
  | mark lease index highest phase =>
    exact Turn.Leads.within (phase.turn_same lease index highest) (fun _ _ same => ⟨same,trivial⟩)
      (fun _ _ same => ⟨same,rfl⟩)
  | report id found phase =>
    exact Turn.Leads.within (phase.turn_same id found) (fun _ _ same => ⟨same,trivial⟩) (fun _ _ same => ⟨same,rfl⟩)
  | _ => exact aside.elim

namespace Traffic

variable {conduct : Conduct} {w w' : Traffic}

/-- While nobody asks for a session or cleans one up, the sessions stay as they are. -/
theorem Step.same (step : Step policy conduct w w') (working : w.state.skeleton.isShuttingDown = false)
    (asides : ∀ call ∈ w.calls, call.IsAside) (asides' : ∀ call ∈ w'.calls, call.IsAside) :
    w.state.SameSessions w'.state := by
  cases step with
  | ask demand asked => exact (asides' _ (Multiset.mem_cons_self _ _)).elim
  | bind grant grants held => exact (asides' _ (Multiset.mem_cons_self _ _)).elim
  | cleanUp => exact (asides' _ (Multiset.mem_cons_self _ _)).elim
  | drop grant grants held => exact .letGo w.state w.clock grant.lease.entry
  | goesOn call calls going turned =>
    have same := @Call.turn_same policy w.clock w.state call (asides call (going ▸ Multiset.mem_cons_self call calls))
    rw [turned] at same
    exact same.1
  | ends call calls going turned =>
    have same := @Call.turn_same policy w.clock w.state call (asides call (going ▸ Multiset.mem_cons_self call calls))
    rw [turned] at same
    exact same.1
  | task number turned => exact .taskTurn working turned
  | happen event => exact .event event w.state
  | _ => exact .refl w.state

/-- The traffic with one more call under way, or none, and more leases out. -/
def joined (w : Traffic) (call : Option Call) (grants : Multiset Grant) : Traffic :=
  { w with calls := call.elim w.calls (· ::ₘ w.calls), grants := w.grants + grants }

/-- A step of the traffic is a step also beside a call and leases that nothing becomes of. -/
theorem Step.joined (step : Step policy conduct w w') (more : Option Call) (grants : Multiset Grant) :
    Step policy conduct (w.joined more grants) (w'.joined more grants) := by
  let u : Traffic := w.joined more grants
  have swap (call : Call) (calls : Multiset Call) :
      more.elim (call ::ₘ calls) (· ::ₘ call ::ₘ calls) = call ::ₘ more.elim calls (· ::ₘ calls) := by
    cases more with
    | none => rfl
    | some other => exact Multiset.cons_swap ..
  have takes {call : Call} {calls : Multiset Call} (going : w.calls = call ::ₘ calls) :
      u.calls = call ::ₘ more.elim calls (· ::ₘ calls) := by
    rw [← swap,← going]
    rfl
  have gives {grant : Grant} {rest : Multiset Grant} (held : w.grants = grant ::ₘ rest) :
      u.grants = grant ::ₘ (rest + grants) := by
    rw [← Multiset.cons_add,← held]
    rfl
  have comes {v : Traffic} {call : Call} {calls : Multiset Call}
      (step : Step policy conduct u { v with calls := call ::ₘ more.elim calls (· ::ₘ calls) }) :
      Step policy conduct u { v with calls := more.elim (call ::ₘ calls) (· ::ₘ call ::ₘ calls) } := by
    rwa [← swap] at step
  cases step with
  | ask demand asked => exact comes (v := u) (.ask demand asked)
  | bind grant rest held => exact comes (v := { u with grants := rest + grants }) (.bind grant _ (gives held))
  | drop grant rest held => exact .drop (w := u) grant _ (gives held)
  | mark grant held index highest marked =>
    exact comes (v := u) (.mark (w := u) grant (Multiset.mem_add.mpr (.inl held)) index highest marked)
  | report run report => exact comes (v := u) (.report run report)
  | cleanUp => exact comes (v := u) .cleanUp
  | @goesOn call calls going s next turned =>
    exact comes (v := { u with state := s, makers := w.makersAfter call s }) (.goesOn call _ (takes going) turned)
  | @ends call calls going s given turned =>
    have stepped : Step policy conduct u _ := .ends call _ (takes going) turned
    rw [show u.grants = w.grants + grants from rfl,← Multiset.add_assoc] at stepped
    exact stepped
  | task number turned => exact .task (w := u) number turned
  | happen event => exact .happen (w := u) event
  | wait clock millis nanos => exact .wait (w := u) clock millis nanos

end Traffic
end Playout.Playback
