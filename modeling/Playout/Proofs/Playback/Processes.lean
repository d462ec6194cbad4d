import Playout.Proofs.Playback.Asides
import Playout.Proofs.Playback.IdleCleanup

/-!
Runs and their processes. A run gets a process when it is launched, by the call that has
made it, and keeps it; no other run has it. Everything else lets what there is go on
(`State.Advances`). So nothing that is said of a run that has not begun touches it, and a
run that has exited stays so in every history.
-/
namespace Playout

/-- Whether a run was launched or is destroyed. -/
def Run.HasBegun (r : Run) : Prop := r.process ≠ none ∨ r.isDestroyed = true

/-- What may become of a run that is not launched. -/
structure Run.Ages (r r' : Run) : Prop where
  process : r'.process = r.process
  destroyed : r.isDestroyed = true → r'.isDestroyed = true
  exited : r.stage = .exited → r'.stage = .exited
  new : ¬ r'.HasBegun → r'.stage = r.stage

namespace Run.Ages

variable {r r' r'' : Run}

theorem refl (r : Run) : r.Ages r := ⟨rfl,id,id,fun _ => rfl⟩

theorem begun (ages : r.Ages r') (begun : r.HasBegun) : r'.HasBegun := by
  rcases begun with launched | destroyed
  · exact .inl (ages.process ▸ launched)
  · exact .inr (ages.destroyed destroyed)

theorem trans (first : r.Ages r') (second : r'.Ages r'') : r.Ages r'' where
  process := second.process.trans first.process
  destroyed gone := second.destroyed (first.destroyed gone)
  exited ended := second.exited (first.exited ended)
  new fresh := (second.new fresh).trans (first.new fun begun => fresh (second.begun begun))

theorem same (process : r'.process = r.process) (destroyed : r'.isDestroyed = r.isDestroyed) (stage : r'.stage = r.stage) :
    r.Ages r' := ⟨process,fun gone => destroyed.trans gone,fun ended => stage.trans ended,fun _ => stage⟩

theorem destroy (r : Run) : r.Ages r.destroy where
  process := rfl
  destroyed _ := rfl
  exited ended := if_pos ended
  new fresh := absurd (.inr rfl) fresh

/-- A run that has begun may come to another stage, unless it has exited. -/
theorem move (begun : r.HasBegun) {stage : Stage} (stays : r.stage = .exited → stage = .exited) :
    r.Ages { r with stage := stage } := ⟨rfl,id,stays,fun fresh => absurd begun fresh⟩

end Run.Ages

namespace Playback

namespace State

/-- Whether there is a run that was launched or is destroyed. -/
def HasBegun (s : State) (run : Nat) : Prop := ∃ r, s.runs[run]? = some r ∧ r.HasBegun

end State

/-- Whether a task is for a run that has begun, if it is for one. -/
def Task.IsApt (s : State) : Task → Prop
  | watch run _ | teardown run _ => s.HasBegun run
  | retirement .. | .over _ => True

/-- Whether a round of cleaning up tears down a run that has begun, if it does. -/
def Cleanup.IsApt (s : State) : Cleanup → Prop
  | tearing _ run .. => s.HasBegun run
  | collect | visiting .. | unlisting .. => True

def Call.IsApt (s : State) : Call → Prop
  | cleanUp phase => phase.IsApt s
  | acquire .. | bind .. | mark .. | report .. => True

namespace State

/-- Runs and processes go on, and no run is launched. -/
structure Advances (s t : State) : Prop where
  aged : ∀ (run : Nat) (r : Run), s.runs[run]? = some r → ∃ r', t.runs[run]? = some r' ∧ r.Ages r'
  made : ∀ (run : Nat) (r : Run), t.runs[run]? = some r → s.runs[run]? = none →
    r.process = none ∧ (¬ r.HasBegun → r.stage = .new)
  processes : t.processes.length = s.processes.length
  exits : ∀ (process : Nat) (p : Encoder.Process), s.processes[process]? = some p → p.exit.isSome = true →
    ∃ p', t.processes[process]? = some p' ∧ p'.exit.isSome = true
  tasks : ∀ task ∈ t.tasks, task ∈ s.tasks ∨ task.IsApt t

variable {s t u : State}

theorem Advances.begun (advances : s.Advances t) {run : Nat} (begun : s.HasBegun run) : t.HasBegun run := by
  obtain ⟨r,found,begun⟩ := begun
  obtain ⟨r',found',ages⟩ := advances.aged run r found
  exact ⟨r',found',ages.begun begun⟩

end State

theorem Task.IsApt.advance {s t : State} {task : Task} (apt : task.IsApt s) (advances : s.Advances t) : task.IsApt t := by
  cases task with
  | watch run process => exact advances.begun apt
  | teardown run phase => exact advances.begun apt
  | _ => trivial

theorem Call.IsApt.advance {s t : State} {call : Call} (apt : call.IsApt s)
    (begun : ∀ run, s.HasBegun run → t.HasBegun run) : call.IsApt t := by
  cases call with
  | cleanUp phase =>
    cases phase with
    | tearing now run phase rest removed => exact begun run apt
    | _ => trivial
  | _ => trivial

namespace State

variable {s t u : State} {run : Nat}

namespace Advances

theorem of_same (runs : t.runs = s.runs) (processes : t.processes = s.processes) (tasks : t.tasks = s.tasks) :
    s.Advances t where
  aged run r found := ⟨r,runs ▸ found,.refl r⟩
  made run r found unmade := by
    rw [runs,unmade] at found
    cases found
  processes := by rw [processes]
  exits process p found ended := ⟨p,processes ▸ found,ended⟩
  tasks task member := .inl (tasks ▸ member)

theorem refl (s : State) : s.Advances s := of_same rfl rfl rfl

theorem trans (first : s.Advances t) (second : t.Advances u) : s.Advances u where
  aged run r found := by
    obtain ⟨r',found',ages⟩ := first.aged run r found
    obtain ⟨r'',found'',ages'⟩ := second.aged run r' found'
    exact ⟨r'',found'',ages.trans ages'⟩
  made run r found unmade := by
    cases between : t.runs[run]? with
    | none => exact second.made run r found between
    | some r' =>
      obtain ⟨free,new⟩ := first.made run r' between unmade
      obtain ⟨r'',found'',ages⟩ := second.aged run r' between
      cases found.symm.trans found''
      refine ⟨ages.process.trans free,fun fresh => (ages.new fresh).trans (new fun begun => fresh (ages.begun begun))⟩
  processes := second.processes.trans first.processes
  exits process p found ended := by
    obtain ⟨p',found',ended'⟩ := first.exits process p found ended
    exact second.exits process p' found' ended'
  tasks task member := by
    rcases second.tasks task member with old | apt
    · exact (first.tasks task old).imp_right fun apt => apt.advance second
    · exact .inr apt

theorem onRun {f : Run → Run} (ages : ∀ r, s.runs[run]? = some r → r.Ages (f r)) : s.Advances (s.onRun run f) where
  aged other r found := by
    rw [State.onRun,List.getElem?_modify,found]
    refine ⟨_,rfl,?_⟩
    dsimp only
    split
    · rename_i same
      exact ages r (same ▸ found)
    · exact .refl r
  made other r found unmade := by
    rw [State.onRun,List.getElem?_modify,unmade] at found
    cases found
  processes := rfl
  exits process p found ended := ⟨p,found,ended⟩
  tasks task member := .inl member

/-- Processes go on: none comes back that has ended. -/
theorem onProcesses {processes : List Encoder.Process} (length : processes.length = s.processes.length)
    (exits : ∀ (process : Nat) (p : Encoder.Process), s.processes[process]? = some p → p.exit.isSome = true →
      ∃ p', processes[process]? = some p' ∧ p'.exit.isSome = true) : s.Advances { s with processes := processes } where
  aged run r found := ⟨r,found,.refl r⟩
  made run r found unmade := by
    cases unmade.symm.trans found
  processes := length
  exits := exits
  tasks task member := .inl member

theorem onProcess {f : Encoder.Process → Encoder.Process} (exit : ∀ p, p.exit.isSome = true → (f p).exit.isSome = true)
    (s : State) (process : Nat) : s.Advances { s with processes := s.processes.modify process f } := by
  refine onProcesses (List.length_modify ..) ?_
  intro other p found ended
  rw [List.getElem?_modify,found]
  refine ⟨_,rfl,?_⟩
  split
  · exact exit p ended
  · exact ended

theorem onTasks {tasks : List Task} (apt : ∀ task ∈ tasks, task ∈ s.tasks ∨ task.IsApt s) :
    s.Advances { s with tasks := tasks } where
  aged run r found := ⟨r,found,.refl r⟩
  made run r found unmade := by
    cases unmade.symm.trans found
  processes := rfl
  exits process p found ended := ⟨p,found,ended⟩
  tasks task member := by
    refine (apt task member).imp_right fun apt => ?_
    cases task <;> exact apt

theorem spawn {task : Task} (apt : task.IsApt s) : s.Advances (s.spawn task) := by
  refine onTasks fun other member => ?_
  rcases List.mem_append.mp member with old | new
  · exact .inl old
  · rw [List.mem_singleton.mp new]
    exact .inr apt

theorem make (s : State) (job : Encoder.Job) : s.Advances { s with runs := s.runs ++ [{ job }] } where
  aged run r found := ⟨r,(List.getElem?_append_left (List.getElem?_eq_some_iff.mp found).1).trans found,.refl r⟩
  made run r found unmade := by
    have found : (s.runs ++ [({ job } : Run)])[run]? = some r := found
    rw [List.getElem?_append_right (List.getElem?_eq_none_iff.mp unmade),List.getElem?_singleton] at found
    split at found
    · cases found
      exact ⟨rfl,fun _ => rfl⟩
    · cases found
  processes := rfl
  exits process p found ended := ⟨p,found,ended⟩
  tasks task member := .inl member

theorem noteExit (begun : s.HasBegun run) : s.Advances (Teardown.noteExit s run) := by
  obtain ⟨r,found,begun⟩ := begun
  refine onRun fun r' found' => ?_
  cases found.symm.trans found'
  exact .move begun fun _ => rfl

theorem removeOutput (s : State) (run : Nat) : s.Advances (s.removeOutput run) := by
  refine onRun fun r _ => ?_
  split <;> exact .same rfl rfl rfl

theorem destroy (s : State) (run : Nat) : s.Advances (s.destroy run) := onRun fun r _ => .destroy r

theorem begun_destroy (found : s.isDestroyed run = false) : (s.destroy run).HasBegun run := by
  unfold State.isDestroyed at found
  cases at_run : s.runs[run]? with
  | none => simp [at_run] at found
  | some r =>
    refine ⟨r.destroy,?_,.inr rfl⟩
    rw [State.destroy,State.onRun,List.getElem?_modify_eq,at_run]
    rfl

theorem refuse (s : State) (run : Nat) : s.Advances (s.refuse run) := by
  have both : s.refuse run = s.onRun run fun r => Run.destroy { r with stage := .exited } := by
    simp only [State.refuse,State.destroy,Teardown.noteExit,State.onRun,List.modify_modify_eq]
    rfl
  rw [both]
  exact onRun fun r _ => ⟨rfl,fun _ => rfl,fun _ => rfl,fun fresh => absurd (.inr rfl) fresh⟩

theorem destroyDetached (s : State) (run : Nat) : s.Advances (s.destroyDetached run) := by
  unfold State.destroyDetached
  split
  · exact .refl s
  · rename_i alive
    exact (destroy s run).trans (spawn (begun_destroy (Bool.eq_false_iff.mpr alive)))

theorem replace (s : State) (started : Started) : s.Advances (s.replace started) := by
  unfold State.replace
  split
  · exact destroyDetached s _
  · exact .refl s

/-- A ticket is given back, and the run that a start has unbound is torn down. -/
theorem settle (s : State) (entry ticket : Nat) (started : Started) :
    s.Advances ((s.unlock entry ticket).replace started) :=
  trans (t := s.unlock entry ticket) (.of_same rfl rfl rfl) (replace _ started)

/-- A signal comes only to a run that was launched. -/
theorem signalRun {source target : Stage} (lives : source ≠ .exited) (s : State) (run : Nat) (pause : Bool) :
    s.Advances (s.signalRun run pause source target).1 := by
  unfold State.signalRun
  split
  · exact .refl s
  · rename_i r found
    split
    · rename_i at_source
      split
      · rename_i v sent
        simp only [signal?,Option.bind_eq_bind,Option.bind_eq_some_iff] at sent
        obtain ⟨number,has,p,at_process,p',taken,same⟩ := sent
        cases same
        have exit : p'.exit = p.exit := by
          unfold Encoder.Process.signal? at taken
          split at taken
          · cases taken
          · cases taken
            rfl
        have signalled : s.Advances { s with processes := s.processes.set number p' } := by
          refine onProcesses List.length_set ?_
          intro other q found' ended
          rw [List.getElem?_set]
          split
          · rename_i same
            subst same
            cases at_process.symm.trans found'
            exact ⟨p',by simp [(List.getElem?_eq_some_iff.mp found').1],by rw [exit]; exact ended⟩
          · exact ⟨q,found',ended⟩
        refine signalled.trans (onRun fun r' found' => ?_)
        cases found.symm.trans found'
        refine .move (.inl ?_) fun ended => absurd (at_source.symm.trans ended) lives
        rw [has]
        exact Option.some_ne_none number
      · exact .refl s
    · exact .refl s

theorem teardown (clock : Clock) (phase : Teardown) (begun : s.HasBegun run) :
    (phase.turn clock run s).Leads (fun t _ => s.Advances t) (fun t _ => s.Advances t) := by
  cases phase with
  | start =>
    unfold Teardown.turn
    dsimp only
    split
    · exact noteExit begun
    · exact onProcess (f := fun p => { p with terminations := p.terminations + 1 }) (fun _ ended => ended) s _
  | terminating process wake =>
    unfold Teardown.turn
    dsimp only
    split
    · trivial
    · have finished : s.Advances (Teardown.finish s process) := by
        refine onProcess ?_ s process
        intro p ended
        unfold Encoder.Process.terminate
        split
        · exact ended
        · rfl
      exact finished.trans (noteExit (finished.begun begun))
  | clearing => exact removeOutput s run

/-- A task that is no retirement goes on with a run that has begun. -/
theorem task (clock : Clock) {task : Task} (other : task.isRetirement = false) (apt : task.IsApt s) :
    (task.turn clock s).Leads (fun t next => s.Advances t ∧ next.IsApt t) (fun t _ => s.Advances t) := by
  cases task with
  | watch run process =>
    unfold Task.turn
    dsimp only
    split
    · exact noteExit apt
    · trivial
  | teardown run phase =>
    exact (teardown clock phase apt).within (fun _ _ advances => ⟨advances,advances.begun apt⟩) (fun _ _ advances => advances)
  | retirement entry phase => cases other
  | _ => trivial

theorem event (event : Event) (s : State) : s.Advances (event.apply s) := by
  cases event with
  | exit process how => exact onProcess (fun _ _ => rfl) s process
  | refuseSignals process refuses =>
    exact onProcess (f := fun p => { p with refusesSignals := refuses }) (fun _ ended => ended) s process
  | files run output => exact onRun fun _ _ => .same rfl rfl rfl
  | _ => exact .of_same rfl rfl rfl

end Advances

/-! ### Launches -/

/-- What the launch of a run makes of the runs, the processes and the tasks. -/
theorem launch_shape (launched : s.launch run = .ok t) :
    ∃ (f : Run → Run) (p : Encoder.Process), t.runs = s.runs.modify run f ∧ t.processes = s.processes ++ [p] ∧
      t.tasks = s.tasks ++ [.watch run s.processes.length] ∧
      ∀ r, (f r).process = some s.processes.length := by
  unfold launch at launched
  split at launched
  · cases launched
  · cases launched
    exact ⟨_,_,rfl,rfl,rfl,fun _ => rfl⟩

/-- The runs and their processes fit together. -/
structure IsProper (s : State) : Prop where
  inside : ∀ (run : Nat) (r : Run) (process : Nat), s.runs[run]? = some r → r.process = some process →
    process < s.processes.length
  /-- No two runs have one process. -/
  apart : ∀ (run run' : Nat) (r r' : Run) (process : Nat), s.runs[run]? = some r → s.runs[run']? = some r' →
    r.process = some process → r'.process = some process → run = run'
  new : ∀ (run : Nat) (r : Run), s.runs[run]? = some r → ¬ r.HasBegun → r.stage = .new
  tasks : ∀ task ∈ s.tasks, task.IsApt s

theorem IsProper.advance (proper : s.IsProper) (advances : s.Advances t) : t.IsProper := by
  have before {run : Nat} {r : Run} {process : Nat} (found : t.runs[run]? = some r) (has : r.process = some process) :
      ∃ r', s.runs[run]? = some r' ∧ r'.process = some process := by
    cases at_run : s.runs[run]? with
    | none =>
      rw [(advances.made run r found at_run).1] at has
      cases has
    | some r' =>
      obtain ⟨r'',found',ages⟩ := advances.aged run r' at_run
      cases found.symm.trans found'
      exact ⟨r',rfl,ages.process.symm.trans has⟩
  constructor
  · intro run r process found has
    obtain ⟨r',found',has'⟩ := before found has
    rw [advances.processes]
    exact proper.inside run r' process found' has'
  · intro run run' r r' process found found' has has'
    obtain ⟨q,at_run,of_run⟩ := before found has
    obtain ⟨q',at_run',of_run'⟩ := before found' has'
    exact proper.apart run run' q q' process at_run at_run' of_run of_run'
  · intro run r found fresh
    cases at_run : s.runs[run]? with
    | none => exact (advances.made run r found at_run).2 fresh
    | some r' =>
      obtain ⟨r'',found',ages⟩ := advances.aged run r' at_run
      cases found.symm.trans found'
      exact (ages.new fresh).trans (proper.new run r' at_run fun begun => fresh (ages.begun begun))
  · intro task member
    exact (advances.tasks task member).elim (fun old => (proper.tasks task old).advance advances) id

theorem begun_launch (launched : s.launch run = .ok t) {other : Nat} (begun : s.HasBegun other) : t.HasBegun other := by
  obtain ⟨f,p,runs,_,_,process⟩ := launch_shape launched
  obtain ⟨r,found,begun⟩ := begun
  rw [HasBegun,runs,List.getElem?_modify,found]
  refine ⟨_,rfl,?_⟩
  split
  · exact .inl (by rw [process]; exact Option.some_ne_none _)
  · exact begun

theorem IsProper.launch (proper : s.IsProper) (launched : s.launch run = .ok t) {r : Run} (made : s.runs[run]? = some r) :
    t.IsProper := by
  obtain ⟨f,p,runs,processes,tasks,process⟩ := launch_shape launched
  have length : t.processes.length = s.processes.length + 1 := by simp [processes]
  -- the process of the run is the new one, and every other run has its old one
  have cases_of {other : Nat} {r : Run} (found : t.runs[other]? = some r) :
      (other = run ∧ r.process = some s.processes.length) ∨ (other ≠ run ∧ s.runs[other]? = some r) := by
    rw [runs,List.getElem?_modify] at found
    obtain ⟨old,at_other,rfl⟩ := Option.map_eq_some_iff.mp found
    split
    · rename_i same
      exact .inl ⟨same.symm,process old⟩
    · rename_i differs
      exact .inr ⟨Ne.symm differs,at_other⟩
  constructor
  · intro other r process' found has
    rcases cases_of found with ⟨_,new⟩ | ⟨_,old⟩
    · cases new.symm.trans has
      omega
    · have := proper.inside other r process' old has
      omega
  · intro other other' r r' process' found found' has has'
    rcases cases_of found with ⟨same,new⟩ | ⟨_,old⟩ <;> rcases cases_of found' with ⟨same',new'⟩ | ⟨_,old'⟩
    · exact same.trans same'.symm
    · cases new.symm.trans has
      exact absurd (proper.inside other' r' _ old' has') (Nat.lt_irrefl _)
    · cases new'.symm.trans has'
      exact absurd (proper.inside other r _ old has) (Nat.lt_irrefl _)
    · exact proper.apart other other' r r' process' old old' has has'
  · intro other r found fresh
    rcases cases_of found with ⟨_,new⟩ | ⟨_,old⟩
    · refine absurd (.inl ?_) fresh
      rw [new]
      exact Option.some_ne_none _
    · exact proper.new other r old fresh
  · intro task member
    rw [tasks] at member
    rcases List.mem_append.mp member with old | new
    · have apt := proper.tasks task old
      cases task with
      | watch other process => exact begun_launch launched apt
      | teardown other phase => exact begun_launch launched apt
      | _ => trivial
    · rw [List.mem_singleton.mp new]
      refine ⟨f r,?_,.inl (by rw [process]; exact Option.some_ne_none _)⟩
      rw [runs,List.getElem?_modify_eq,made]
      rfl

/-- What a call that has made a run, or none, leads to: runs and processes go on, where the run may have been launched. -/
inductive Proceeds (s : State) (fresh : Option Nat) (t : State) : Prop
  | advances (advances : s.Advances t)
  | launches {run : Nat} {u : State} (made : fresh = some run) (launched : s.launch run = .ok u) (after : u.Advances t)

theorem Proceeds.follow {fresh : Option Nat} (proceeds : s.Proceeds fresh t) (after : t.Advances u) : s.Proceeds fresh u := by
  cases proceeds with
  | advances before => exact .advances (before.trans after)
  | launches made launched before => exact .launches made launched (before.trans after)

end State

/-! ### Calls -/

variable {policy : Policy} {clock : Clock} {s : State}

theorem Start.turn_proceeds (order : Order) (demand : Demand) (entry ticket : Nat) (phase : Start) :
    (phase.turn policy order s).Leads (fun t _ => s.Advances t)
      (fun t _ => s.Proceeds (phase.grip demand entry ticket).fresh t) := by
  cases phase with
  | begin => exact .of_same rfl rfl rfl
  | makeRoot replaced =>
    unfold turn
    dsimp only
    split
    · exact .advances (.refl s)
    · exact .refl s
  | makeDirectory replaced =>
    unfold turn
    dsimp only
    split
    · exact .advances (.refl s)
    · exact .make s _
  | launch replaced run =>
    unfold turn
    dsimp only
    split
    · rename_i t launched
      exact .launches rfl launched (.of_same rfl rfl rfl)
    · exact .refuse s run
  | discard replaced run why => exact .advances (.removeOutput s run)

theorem Acquire.turn_proceeds (demand : Demand) (phase : Acquire) :
    (phase.turn policy clock demand s).Leads (fun t _ => s.Advances t) (fun t _ => s.Proceeds (phase.grip demand).fresh t) := by
  cases phase with
  | lookup =>
    unfold turn enter
    dsimp only
    split <;> exact .of_same rfl rfl rfl
  | approaching entry => exact .of_same rfl rfl rfl
  | locking entry ticket =>
    have same : s.Advances (s.unlock entry ticket) := .of_same rfl rfl rfl
    unfold turn
    dsimp only
    split
    · trivial
    · unfold decide
      split
      · exact .of_same rfl rfl rfl
      · split
        · exact .advances same
        · exact .advances same
        · split
          · split
            · exact .refl s
            · exact .advances (.of_same rfl rfl rfl)
          · exact .refl s
        · exact .refl s
  | retrying => exact .refl s
  | listing entry ticket run => exact .refl s
  | listed entry ticket run holds =>
    unfold turn
    dsimp only
    split
    · exact .advances (.of_same rfl rfl rfl)
    · exact .refl s
  | starting entry ticket phase =>
    refine (phase.turn_proceeds _ demand entry ticket).within (fun _ _ advances => advances) ?_
    rintro t ⟨replaced,outcome⟩ proceeds
    have settled := State.Advances.settle t entry ticket ⟨replaced,outcome⟩
    cases outcome with
    | ok run => exact proceeds.follow settled
    | error why => exact proceeds.follow (settled.trans (.of_same rfl rfl rfl))

theorem Bind.turn_proceeds (lease : Lease) (phase : Bind) :
    (phase.turn policy clock lease s).Leads (fun t _ => s.Advances t) (fun t _ => s.Proceeds (phase.grip lease).fresh t) := by
  unfold turn grip
  cases lease.pending with
  | none => exact .advances (.refl s)
  | some demand =>
    cases phase with
    | begin => exact .refl s
    | approaching deadline => exact .of_same rfl rfl rfl
    | locking deadline calls ticket =>
      dsimp only
      split
      · trivial
      · unfold decide
        dsimp only
        split
        · exact .advances (.of_same rfl rfl rfl)
        · split
          · exact .advances (.of_same rfl rfl rfl)
          · split
            · exact .refl s
            · exact .of_same rfl rfl rfl
    | waiting deadline calls =>
      dsimp only
      split
      · trivial
      · exact .refl s
    | starting ticket first phase =>
      refine (phase.turn_proceeds _ demand lease.entry ticket).within (fun _ _ advances => advances) ?_
      rintro t ⟨replaced,outcome⟩ proceeds
      have settled := State.Advances.settle t lease.entry ticket ⟨replaced,outcome⟩
      cases outcome with
      | ok run => exact proceeds.follow settled
      | error why => exact proceeds.follow (settled.trans (.of_same rfl rfl rfl))

theorem Served.turn_advances (phase : Served) (lease : Lease) (index : Nat) (highest : Option Nat) :
    (phase.turn policy lease index highest s).Leads (fun t _ => s.Advances t) (fun t _ => s.Advances t) := by
  unfold turn
  cases lease.run with
  | none => exact .refl s
  | some run =>
    cases phase with
    | begin => exact .of_same rfl rfl rfl
    | locking ticket =>
      dsimp only
      split
      · trivial
      · split <;> exact .of_same rfl rfl rfl
    | noted lastServed =>
      dsimp only
      split
      · exact .signalRun (by decide) s run false
      · exact .refl s

theorem Feedback.turn_advances (phase : Feedback) (id : RunId) (report : Encoder.Report) :
    (phase.turn policy id report s).Leads (fun t _ => s.Advances t) (fun t _ => s.Advances t) := by
  cases phase with
  | lookup =>
    unfold turn
    dsimp only
    split
    · exact .refl s
    · exact .of_same rfl rfl rfl
  | locking run entry ticket =>
    unfold turn
    dsimp only
    split
    · trivial
    · split <;> exact .of_same rfl rfl rfl
  | recording run lastServed =>
    have recorded : s.Advances (s.onRun run fun r => { r with progress := some report }) :=
      .onRun fun _ _ => .same rfl rfl rfl
    unfold turn
    dsimp only
    split <;> exact recorded
  | listing run lastServed => exact .refl s
  | listed run lastServed available =>
    unfold turn
    dsimp only
    split
    · split
      · exact .signalRun (by decide) s run true
      · exact .refl s
    · exact .refl s

theorem Cleanup.turn_advances (phase : Cleanup) (apt : phase.IsApt s) :
    (phase.turn policy clock s).Leads (fun t next => s.Advances t ∧ next.IsApt t) (fun t _ => s.Advances t) := by
  cases phase with
  | collect => exact ⟨.refl s,trivial⟩
  | visiting now waiting removed =>
    cases waiting with
    | nil => exact .refl s
    | cons next rest =>
      unfold turn
      dsimp only
      split
      · exact ⟨.refl s,trivial⟩
      · split
        · exact ⟨.of_same rfl rfl rfl,trivial⟩
        · exact ⟨.refl s,trivial⟩
  | unlisting now key entry run rest removed =>
    unfold turn
    dsimp only
    cases run with
    | none => exact ⟨.of_same rfl rfl rfl,trivial⟩
    | some run =>
      let u : State := { s with table := s.table.filter (· ≠ (key,entry)), owners := s.owners.filter (·.1 != run) }
      have left : s.Advances u := .of_same rfl rfl rfl
      dsimp only [State.destroyed]
      split
      · rename_i t phase destroyed
        split at destroyed
        · cases destroyed
        · rename_i alive
          cases destroyed
          exact ⟨left.trans (.destroy u run),State.Advances.begun_destroy (Bool.eq_false_iff.mpr alive)⟩
      · rename_i t destroyed
        split at destroyed
        · cases destroyed
          exact ⟨left,trivial⟩
        · cases destroyed
  | tearing now run phase rest removed =>
    exact (State.Advances.teardown clock phase apt).within (fun _ _ advances => ⟨advances,advances.begun apt⟩)
      (fun _ _ advances => ⟨advances,trivial⟩)

/-- A turn of a call lets runs and processes go on; only one that ends the call launches a run. -/
theorem Call.turn_proceeds (call : Call) (apt : call.IsApt s) :
    (call.turn policy clock s).Leads (fun t next => s.Advances t ∧ next.IsApt t) (fun t _ => s.Proceeds call.grip.fresh t) := by
  cases call with
  | acquire demand phase =>
    exact Turn.Leads.within (phase.turn_proceeds demand) (fun _ _ advances => ⟨advances,trivial⟩)
      (fun _ r proceeds => by cases r <;> exact proceeds)
  | bind grant phase =>
    exact Turn.Leads.within (phase.turn_proceeds grant.lease) (fun _ _ advances => ⟨advances,trivial⟩)
      (fun _ r proceeds => by cases r <;> exact proceeds)
  | mark lease index highest phase =>
    exact Turn.Leads.within (phase.turn_advances lease index highest) (fun _ _ advances => ⟨advances,trivial⟩)
      (fun _ _ advances => .advances advances)
  | report id found phase =>
    exact Turn.Leads.within (phase.turn_advances id found) (fun _ _ advances => ⟨advances,trivial⟩)
      (fun _ _ advances => .advances advances)
  | cleanUp phase =>
    exact Turn.Leads.within (phase.turn_advances apt) (fun _ _ advances => advances) (fun _ _ advances => .advances advances)

/-! ### Runs that have exited -/

namespace State

variable {t : State} {run : Nat}

theorem hasExited_iff {r : Run} (found : s.runs[run]? = some r) : s.hasExited run = true ↔ r.stage = .exited ∨
    ∃ process p, r.process = some process ∧ s.processes[process]? = some p ∧ p.exit.isSome = true := by
  have ends : ((s.processOf? r).bind (·.exit)).isSome = true ↔
      ∃ process p, r.process = some process ∧ s.processes[process]? = some p ∧ p.exit.isSome = true := by
    simp only [processOf?,Option.isSome_iff_exists,Option.bind_eq_some_iff]
    constructor
    · rintro ⟨exit,p,⟨process,has,at_process⟩,ended⟩
      exact ⟨process,p,has,at_process,exit,ended⟩
    · rintro ⟨process,p,has,at_process,exit,ended⟩
      exact ⟨exit,p,⟨process,has,at_process⟩,ended⟩
  rw [← ends]
  simp only [hasExited,found,beq_iff_eq,stageOf,Run.shown]
  split
  · rename_i ended
    exact ⟨fun _ => .inr ended,fun _ => rfl⟩
  · rename_i going
    exact ⟨.inl,fun exited => exited.resolve_right going⟩

theorem Advances.hasExited (advances : s.Advances t) {r : Run} (found : s.runs[run]? = some r)
    (exited : s.hasExited run = true) : t.hasExited run = true := by
  obtain ⟨r',found',ages⟩ := advances.aged run r found
  rw [hasExited_iff found']
  rcases (hasExited_iff found).mp exited with noted | ⟨process,p,has,at_process,ended⟩
  · exact .inl (ages.exited noted)
  · obtain ⟨p',at_process',ended'⟩ := advances.exits process p at_process ended
    exact .inr ⟨process,p',ages.process.trans has,at_process',ended'⟩

/-- The launch of one run leaves the others exited. -/
theorem hasExited_launch {other : Nat} (launched : s.launch other = .ok t) (differs : other ≠ run) {r : Run}
    (found : s.runs[run]? = some r) (exited : s.hasExited run = true) : t.hasExited run = true := by
  obtain ⟨f,p,runs,processes,_,_⟩ := launch_shape launched
  have found' : t.runs[run]? = some r := by
    rw [runs,List.getElem?_modify_ne _ _ differs]
    exact found
  rw [hasExited_iff found']
  refine ((hasExited_iff found).mp exited).imp_right ?_
  rintro ⟨process,q,has,at_process,ended⟩
  refine ⟨process,q,has,?_,ended⟩
  rw [processes,List.getElem?_append_left (List.getElem?_eq_some_iff.mp at_process).1]
  exact at_process

theorem Proceeds.begun {fresh : Option Nat} (proceeds : s.Proceeds fresh t) (begun : s.HasBegun run) : t.HasBegun run := by
  cases proceeds with
  | advances advances => exact advances.begun begun
  | launches made launched after => exact after.begun (begun_launch launched begun)

end State

/-! ### Histories -/

namespace Traffic

variable {conduct : Conduct} {w w' : Traffic}

/-- The runs of the table, their processes and those who have to do with them fit together. -/
structure IsProper (w : Traffic) : Prop where
  proper : w.state.IsProper
  calls : ∀ call ∈ w.calls, call.IsApt w.state
  fresh : ∀ g ∈ w.grips, ∀ run, g.fresh = some run → ∃ r, w.state.runs[run]? = some r ∧ r.process = none

/-- A run that somebody has just made has not begun. -/
theorem IsSound.not_begun (sound : w.IsSound) (proper : w.IsProper) {g : Grip} (among : g ∈ w.grips) {run : Nat}
    (made : g.fresh = some run) : ∃ r, w.state.runs[run]? = some r ∧ ¬ r.HasBegun := by
  obtain ⟨r,found,free⟩ := proper.fresh g among run made
  refine ⟨r,found,?_⟩
  rintro (launched | destroyed)
  · exact launched free
  · have owned := sound.owned run
    have counted : 0 < (w.grips.map Grip.fresh).count (some run) :=
      Multiset.count_pos.mpr (made ▸ Multiset.mem_map_of_mem _ among)
    have gone : w.state.skeleton.isDestroyed run = true := by
      rw [← State.isDestroyed_skeleton,State.isDestroyed,found]
      exact destroyed
    rw [gone,Bool.toNat_true] at owned
    omega

/-- Who has made a run had made it before the step, or it is a new one. -/
theorem Change.fresh (change : Change policy conduct w w') {g : Grip} (among : g ∈ w'.grips) {run : Nat}
    (made : g.fresh = some run) : (∃ h ∈ w.grips, h.fresh = some run) ∨ run = w.state.runs.length := by
  cases change with
  | keeps skeleton makers grips => exact .inl ⟨g,grips ▸ among,made⟩
  | joins skeleton makers grips idle visits wants given =>
    rw [grips] at among
    rcases Multiset.mem_cons.mp among with rfl | old
    · rw [idle.fresh] at made
      cases made
    · exact .inl ⟨g,old,made⟩
  | parts skeleton makers grips idle => exact .inl ⟨g,grips ▸ Multiset.mem_cons_of_mem among,made⟩
  | @moves h _ g' rest news before move covers after makers =>
    have among : g = g' ∨ g ∈ rest := by
      rcases after with on | ⟨_,done⟩
      · exact Multiset.mem_cons.mp (on ▸ among)
      · exact .inr (done ▸ among)
    rw [before]
    rcases among with rfl | other
    · rcases move.bindings.fresh run (covers.fresh ▸ made) with old | new
      · exact .inl ⟨h,Multiset.mem_cons_self h rest,old⟩
      · exact .inr (new.trans (List.length_map ..))
    · exact .inl ⟨g,Multiset.mem_cons_of_mem other,made⟩

/-- What a step does to the runs: they go on, where one that somebody has just made may have been launched. -/
theorem Step.proceeds (step : Step policy conduct w w') (sound : w.IsSound) (proper : w.IsProper) :
    ∃ fresh : Option Nat, w.state.Proceeds fresh w'.state ∧
      ∀ run, fresh = some run → ∃ rest g, w.grips = g ::ₘ rest ∧ g.fresh = some run ∧
        ∀ h ∈ w'.grips, h.fresh = none ∨ h ∈ rest := by
  have on {t : State} (advances : w.state.Advances t) : ∃ fresh : Option Nat, w.state.Proceeds fresh t ∧
      ∀ run, fresh = some run → ∃ rest g, w.grips = g ::ₘ rest ∧ g.fresh = some run ∧
        ∀ h ∈ w'.grips, h.fresh = none ∨ h ∈ rest := ⟨none,.advances advances,fun _ none => by cases none⟩
  cases step with
  | drop grant grants held => exact on (.of_same rfl rfl rfl)
  | goesOn call calls going turned =>
    have leads := @Call.turn_proceeds policy w.clock w.state call (proper.calls call (going ▸ Multiset.mem_cons_self call calls))
    rw [turned] at leads
    exact on leads.1
  | @ends call calls going s given turned =>
    have leads := @Call.turn_proceeds policy w.clock w.state call (proper.calls call (going ▸ Multiset.mem_cons_self call calls))
    rw [turned] at leads
    refine ⟨_,leads,fun run made => ⟨calls.map Call.grip + w.grants.map (·.lease.grip),call.grip,?_,made,?_⟩⟩
    · simp only [grips,going,Multiset.map_cons,Multiset.cons_add]
    · intro h among
      simp only [grips,Multiset.map_add] at among
      rcases Multiset.mem_add.mp among with other | left
      · exact .inr (Multiset.mem_add.mpr (.inl other))
      · rcases Multiset.mem_add.mp left with new | old
        · cases given with
          | none => cases new
          | some grant =>
            rw [Option.elim,Multiset.map_singleton] at new
            rw [Multiset.mem_singleton.mp new]
            exact .inl rfl
        · exact .inr (Multiset.mem_add.mpr (.inr old))
  | @task number t turned =>
    obtain ⟨_,u,next,_,⟨advances,apt⟩,rfl⟩ := State.taskTurn?_leads
      (fun _ u next => w.state.Advances u ∧ next.IsApt u) turned fun task here =>
        (State.Advances.task w.clock (State.other_of_working sound.listed.working here)
          (proper.proper.tasks task (List.mem_of_getElem? here))).mono (fun _ _ both => both) fun _ _ advances =>
            ⟨advances,trivial⟩
    refine on (advances.trans (.onTasks fun task member => ?_))
    rcases List.mem_or_eq_of_mem_set member with old | rfl
    · exact .inl old
    · exact .inr apt
  | happen event => exact on (.event event w.state)
  | _ => exact on (.refl w.state)

theorem proper_step (sound : w.IsSound) (proper : w.IsProper) (step : Step policy conduct w w') : w'.IsProper := by
  obtain ⟨fresh,proceeds,launches⟩ := step.proceeds sound proper
  have change := step.change sound.listed.working
  have after := sound_step sound step
  constructor
  · cases proceeds with
    | advances advances => exact proper.proper.advance advances
    | @launches run u made launched later =>
      obtain ⟨rest,g,before,made,_⟩ := launches run made
      obtain ⟨r,found,_⟩ := proper.fresh g (before ▸ Multiset.mem_cons_self g rest) run made
      exact (proper.proper.launch launched found).advance later
  · have joins {call : Call} (apt : call.IsApt w.state) : ∀ c ∈ call ::ₘ w.calls, c.IsApt w.state :=
      Multiset.forall_mem_cons.mpr ⟨apt,proper.calls⟩
    cases step with
    | ask demand asked => exact joins trivial
    | bind grant grants held => exact joins trivial
    | mark grant held index highest marked => exact joins trivial
    | report run report => exact joins trivial
    | cleanUp => exact joins trivial
    | goesOn call calls going turned =>
      have leads := @Call.turn_proceeds policy w.clock w.state call (proper.calls call (going ▸ Multiset.mem_cons_self call calls))
      rw [turned] at leads
      refine Multiset.forall_mem_cons.mpr ⟨leads.2,fun c member => ?_⟩
      exact (proper.calls c (going ▸ Multiset.mem_cons_of_mem member)).advance fun _ => proceeds.begun
    | ends call calls going turned =>
      exact fun c member => (proper.calls c (going ▸ Multiset.mem_cons_of_mem member)).advance fun _ => proceeds.begun
    | _ => exact fun c member => (proper.calls c member).advance fun _ => proceeds.begun
  · intro g among run made
    have alive : w'.state.skeleton.isDestroyed run = false := by
      have owned := after.owned run
      have counted : 0 < (w'.grips.map Grip.fresh).count (some run) :=
        Multiset.count_pos.mpr (made ▸ Multiset.mem_map_of_mem _ among)
      cases gone : w'.state.skeleton.isDestroyed run with
      | false => rfl
      | true =>
        rw [gone,Bool.toNat_true] at owned
        omega
    obtain ⟨r,found⟩ : ∃ r, w'.state.runs[run]? = some r := by
      rw [← State.isDestroyed_skeleton,State.isDestroyed] at alive
      cases found : w'.state.runs[run]? with
      | none => simp [found] at alive
      | some r => exact ⟨r,rfl⟩
    refine ⟨r,found,?_⟩
    rcases change.fresh among made with ⟨h,among',made'⟩ | new
    · obtain ⟨r',found',free⟩ := proper.fresh h among' run made'
      cases proceeds with
      | advances advances =>
        obtain ⟨r'',found'',ages⟩ := advances.aged run r' found'
        cases found.symm.trans found''
        exact ages.process.trans free
      | @launches other u made'' launched later =>
        -- the run that is launched is in no other hands
        obtain ⟨rest,x,before,of_x,left⟩ := launches other made''
        have differs : other ≠ run := by
          rintro rfl
          have here : g ∈ rest := (left g among).resolve_left (by simp [made])
          have owned := sound.owned other
          have counted : 0 < (rest.map Grip.fresh).count (some other) :=
            Multiset.count_pos.mpr (made ▸ Multiset.mem_map_of_mem _ here)
          rw [before,Multiset.map_cons,of_x,Multiset.count_cons_self] at owned
          omega
        obtain ⟨f,p,runs,_,_,_⟩ := State.launch_shape launched
        have kept : u.runs[run]? = some r' := by
          rw [runs,List.getElem?_modify_ne _ _ differs]
          exact found'
        obtain ⟨r'',found'',ages⟩ := later.aged run r' kept
        cases found.symm.trans found''
        exact ages.process.trans free
    · have unmade : w.state.runs[run]? = none := by rw [new]; exact List.getElem?_eq_none (Nat.le_refl _)
      cases proceeds with
      | advances advances => exact (advances.made run r found unmade).1
      | @launches other u _ launched later =>
        obtain ⟨f,p,runs,_,_,_⟩ := State.launch_shape launched
        have unmade' : u.runs[run]? = none := by
          rw [runs,List.getElem?_modify,unmade]
          rfl
        exact (later.made run r found unmade').1

/-- In every history the runs and their processes fit together. -/
theorem proper_of_reachable (reached : w.Reachable policy conduct) : w.IsProper := by
  induction reached with
  | refl =>
    refine ⟨⟨?_,?_,?_,?_⟩,?_,?_⟩ <;> simp [grips]
  | tail before step ih => exact proper_step (sound_of_reachable before) ih step

/-- A run that has exited stays so. -/
theorem exited_step (sound : w.IsSound) (proper : w.IsProper) (step : Step policy conduct w w') {run : Nat} {r : Run}
    (found : w.state.runs[run]? = some r) (exited : w.state.hasExited run = true) : w'.state.hasExited run = true := by
  obtain ⟨fresh,proceeds,launches⟩ := step.proceeds sound proper
  cases proceeds with
  | advances advances => exact advances.hasExited found exited
  | @launches other u made launched later =>
    obtain ⟨rest,g,before,made,_⟩ := launches other made
    have differs : other ≠ run := by
      rintro rfl
      obtain ⟨r',found',idle⟩ := sound.not_begun proper (before ▸ Multiset.mem_cons_self g rest) made
      cases found.symm.trans found'
      rcases (State.hasExited_iff found).mp exited with noted | ⟨process,_,has,_⟩
      · exact absurd ((proper.proper.new other r found idle).symm.trans noted) (by decide)
      · exact idle (.inl (by rw [has]; exact Option.some_ne_none process))
    have still := State.hasExited_launch launched differs found exited
    obtain ⟨f,p,runs,_,_,_⟩ := State.launch_shape launched
    have found' : u.runs[run]? = some r := by
      rw [runs,List.getElem?_modify_ne _ _ differs]
      exact found
    exact later.hasExited found' still

end Traffic
end Playback
end Playout
