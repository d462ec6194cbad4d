import Playout.Proofs.Playback.Traffic
import Playout.Proofs.Turn

/-!
The skeleton of a state: who holds which lock, which run is bound where, what has
left the table and what is destroyed. Every operation on the table changes a
state's skeleton in one way, whatever else it does; that encoders write files,
pause or end leaves it as it is.
-/
namespace Playout.Playback

/-- Whether a task retires an entry. -/
def Task.isRetirement : Task → Bool
  | .retirement .. => true
  | .watch .. | .teardown .. | .over _ => false

/-- What the calls on the table share out among themselves. -/
structure Skeleton where
  /-- The locks of the entries. -/
  locks : List Lock
  /-- The runs that are bound to the entries. -/
  bindings : List (Option Nat)
  /-- Which entries have left the table for good. -/
  retirements : List Bool
  table : List (Key × Nat)
  owners : List (Nat × Nat)
  jobs : List Encoder.Job
  /-- Which runs are destroyed. -/
  destroyed : List Bool
  /-- Whether entries are retired by tasks. -/
  isShuttingDown : Bool

namespace State

/-- The skeleton of a state. -/
def skeleton (s : State) : Skeleton where
  locks := s.entries.map (·.lock)
  bindings := s.entries.map (·.run)
  retirements := s.entries.map (·.isRetired)
  table := s.table
  owners := s.owners
  jobs := s.runs.map (·.job)
  destroyed := s.runs.map (·.isDestroyed)
  isShuttingDown := s.tasks.any Task.isRetirement

end State

namespace Skeleton

/-- Whether a run is destroyed; one that there is not counts as destroyed. -/
def isDestroyed (k : Skeleton) (run : Nat) : Bool := k.destroyed[run]?.getD true

/-- The run that is bound to an entry. -/
def bound? (k : Skeleton) (entry : Nat) : Option Nat := k.bindings[entry]?.join

/-- The skeleton where the runs that were taken from an entry have no owner. -/
def disown (k : Skeleton) : Option Nat → Skeleton
  | some run => { k with owners := k.owners.filter (·.1 != run) }
  | none => k

/-- The skeleton where a run that was taken from an entry is destroyed. -/
def discard (k : Skeleton) : Option Nat → Skeleton
  | some run => { k with destroyed := k.destroyed.set run true }
  | none => k

/-- The skeleton where an entry is bound to a run, or to none. -/
def bind (k : Skeleton) (entry : Nat) (run : Option Nat) : Skeleton :=
  { k with bindings := k.bindings.set entry run }

/-- The skeleton where the lock of an entry is changed. -/
def onLock (k : Skeleton) (entry : Nat) (f : Lock → Lock) : Skeleton :=
  { k with locks := k.locks.modify entry f }

end Skeleton

section lists
variable {α β : Type}

theorem map_modify_eq {p : α → β} {f : α → α} {g : β → β} (acts : ∀ a, p (f a) = g (p a)) (l : List α)
    (i : Nat) : (l.modify i f).map p = (l.map p).modify i g := by
  apply List.ext_getElem?
  intro j
  rw [List.getElem?_map,List.getElem?_modify,List.getElem?_modify,List.getElem?_map]
  cases l[j]? with
  | none => rfl
  | some a => by_cases at_i : i = j <;> simp [at_i,acts]

theorem map_modify_self {p : α → β} {f : α → α} (keeps : ∀ a, p (f a) = p a) (l : List α) (i : Nat) :
    (l.modify i f).map p = l.map p := by
  rw [map_modify_eq (g := id) keeps]
  exact List.modify_id i _

theorem map_modify_set {p : α → β} {f : α → α} {b : β} (sets : ∀ a, p (f a) = b) (l : List α) (i : Nat) :
    (l.modify i f).map p = (l.map p).set i b := by
  apply List.ext_getElem?
  intro j
  rw [List.getElem?_map,List.getElem?_modify,List.getElem?_set,List.getElem?_map]
  by_cases at_i : i = j
  · subst at_i
    by_cases inside : i < l.length
    · simp [inside,sets]
    · simp [inside]
  · simp [at_i]

end lists

namespace State

variable (s : State)

theorem isDestroyed_skeleton (run : Nat) : s.isDestroyed run = s.skeleton.isDestroyed run := by
  simp only [isDestroyed,Skeleton.isDestroyed,skeleton,List.getElem?_map]
  cases s.runs[run]? <;> rfl

theorem run_of_job {s : State} {run : Nat} {job : Encoder.Job} (found : s.skeleton.jobs[run]? = some job) :
    ∃ r, s.runs[run]? = some r ∧ r.job = job := by
  simpa [skeleton,List.getElem?_map,Option.map_eq_some_iff] using found

/-! ### Entries -/

theorem skeleton_onEntry {f : Entry → Entry} (lock : ∀ e, (f e).lock = e.lock) (run : ∀ e, (f e).run = e.run)
    (retired : ∀ e, (f e).isRetired = e.isRetired) (entry : Nat) : (s.onEntry entry f).skeleton = s.skeleton := by
  simp only [skeleton,onEntry,map_modify_self lock,map_modify_self run,map_modify_self retired]

@[simp] theorem skeleton_hold (entry : Nat) : (s.hold entry).skeleton = s.skeleton := by
  apply skeleton_onEntry <;> exact fun _ => rfl

@[simp] theorem skeleton_letGo (clock : Clock) (entry : Nat) : (s.letGo clock entry).skeleton = s.skeleton := by
  apply skeleton_onEntry <;> exact fun _ => rfl

theorem skeleton_onLock {f : Entry → Entry} {g : Lock → Lock} (lock : ∀ e, (f e).lock = g e.lock)
    (run : ∀ e, (f e).run = e.run) (retired : ∀ e, (f e).isRetired = e.isRetired) (entry : Nat) :
    (s.onEntry entry f).skeleton = s.skeleton.onLock entry g := by
  simp only [skeleton,onEntry,Skeleton.onLock,map_modify_eq (p := fun e : Entry => e.lock) lock,
    map_modify_self run,map_modify_self retired]

@[simp] theorem skeleton_askLock (entry : Nat) :
    (s.askLock entry).skeleton = s.skeleton.onLock entry Lock.request := by
  apply skeleton_onLock <;> exact fun _ => rfl

@[simp] theorem skeleton_unlock (entry ticket : Nat) :
    (s.unlock entry ticket).skeleton = s.skeleton.onLock entry (·.leave ticket) := by
  apply skeleton_onLock <;> exact fun _ => rfl

theorem skeleton_onRunOf {f : Entry → Entry} {b : Option Nat} (lock : ∀ e, (f e).lock = e.lock)
    (run : ∀ e, (f e).run = b) (retired : ∀ e, (f e).isRetired = e.isRetired) (entry : Nat) :
    (s.onEntry entry f).skeleton = s.skeleton.bind entry b := by
  simp only [skeleton,onEntry,Skeleton.bind,map_modify_self lock,map_modify_set run,map_modify_self retired]

theorem bound?_skeleton (entry : Nat) : s.skeleton.bound? entry = (s.entries[entry]?).bind (·.run) := by
  simp only [Skeleton.bound?,skeleton,List.getElem?_map]
  cases s.entries[entry]? <;> rfl

@[simp] theorem skeleton_unbindRun (entry : Nat) :
    (s.unbindRun entry).skeleton = (s.skeleton.bind entry none).disown (s.skeleton.bound? entry) := by
  have unbound : (s.onEntry entry fun e => { e with run := none }).skeleton = s.skeleton.bind entry none := by
    apply skeleton_onRunOf <;> exact fun _ => rfl
  rw [bound?_skeleton,← unbound]
  unfold unbindRun
  cases (s.entries[entry]?).bind (·.run) <;> rfl

@[simp] theorem skeleton_bindRun (entry run first : Nat) :
    (s.bindRun entry run first).skeleton =
      { s.skeleton.bind entry (some run) with owners := (s.owners.filter (·.1 != run)) ++ [(run,entry)] } := by
  have bound : (s.onEntry entry fun e =>
      { e with run := some run, lastRequested := first, lastServed := none, calls := e.calls + 1 }).skeleton =
        s.skeleton.bind entry (some run) := by
    apply skeleton_onRunOf <;> exact fun _ => rfl
  rw [← bound]
  rfl

/-! ### Runs -/

theorem skeleton_onRun {f : Run → Run} (job : ∀ r, (f r).job = r.job)
    (destroyed : ∀ r, (f r).isDestroyed = r.isDestroyed) (run : Nat) : (s.onRun run f).skeleton = s.skeleton := by
  simp only [skeleton,onRun,map_modify_self job,map_modify_self destroyed]

@[simp] theorem skeleton_removeOutput (run : Nat) : (s.removeOutput run).skeleton = s.skeleton := by
  apply skeleton_onRun <;> exact fun _ => by split <;> rfl

@[simp] theorem skeleton_noteExit (run : Nat) : (Teardown.noteExit s run).skeleton = s.skeleton := by
  apply skeleton_onRun <;> exact fun _ => rfl

@[simp] theorem skeleton_destroy (run : Nat) : (s.destroy run).skeleton = s.skeleton.discard (some run) := by
  simp only [skeleton,destroy,onRun,Skeleton.discard,map_modify_self (p := fun r : Run => r.job) (f := Run.destroy)
    (fun _ => rfl),map_modify_set (p := fun r : Run => r.isDestroyed) (f := Run.destroy) (b := true) (fun _ => rfl)]

@[simp] theorem skeleton_refuse (run : Nat) : (s.refuse run).skeleton = s.skeleton.discard (some run) := by
  simp [refuse]

theorem skeleton_spawn {task : Task} (other : task.isRetirement = false) :
    (s.spawn task).skeleton = s.skeleton := by
  simp [skeleton,spawn,other]

end State

/-- To destroy a run again changes nothing. -/
theorem Skeleton.discard_of_isDestroyed {k : Skeleton} {run : Nat} (gone : k.isDestroyed run = true) :
    k.discard (some run) = k := by
  have same : k.destroyed.set run true = k.destroyed := by
    apply List.ext_getElem?
    intro j
    rw [List.getElem?_set]
    by_cases at_run : run = j
    · subst at_run
      simp only [isDestroyed] at gone
      by_cases inside : run < k.destroyed.length
      · simp_all
      · simp [inside]
    · simp [at_run]
  simp [discard,same]

namespace State

variable (s : State)

@[simp] theorem skeleton_destroyDetached (run : Nat) :
    (s.destroyDetached run).skeleton = s.skeleton.discard (some run) := by
  unfold destroyDetached
  split
  · rename_i gone
    rw [isDestroyed_skeleton] at gone
    exact (Skeleton.discard_of_isDestroyed gone).symm
  · rw [skeleton_spawn _ rfl,skeleton_destroy]

@[simp] theorem skeleton_destroyed (run : Nat) :
    (s.destroyed run).1.skeleton = s.skeleton.discard (some run) := by
  unfold destroyed
  split
  · rename_i gone
    rw [isDestroyed_skeleton] at gone
    exact (Skeleton.discard_of_isDestroyed gone).symm
  · exact s.skeleton_destroy run

@[simp] theorem skeleton_replace (started : Started) :
    (s.replace started).skeleton = s.skeleton.discard started.replaced := by
  unfold replace
  cases started.replaced with
  | none => rfl
  | some run => exact s.skeleton_destroyDetached run

theorem job_produce (r : Run) (start count : Nat) :
    (r.produce start count).job = r.job ∧ (r.produce start count).isDestroyed = r.isDestroyed := by
  have written : ∀ (numbers : List Nat) (kind : StreamKind) (r : Run),
      (numbers.foldl (fun run n => run.write (Encoder.segmentName n kind) (Encoder.segmentContent n kind)) r).job =
        r.job ∧
      (numbers.foldl (fun run n => run.write (Encoder.segmentName n kind) (Encoder.segmentContent n kind))
        r).isDestroyed = r.isDestroyed := by
    intro numbers kind
    induction numbers with
    | nil => intro r; exact ⟨rfl,rfl⟩
    | cons n rest ih => intro r; exact ih _
  unfold Run.produce
  dsimp only
  split
  · exact written _ _ r
  · exact written _ _ r

theorem skeleton_launch {run : Nat} {t : State} (launched : s.launch run = .ok t) : t.skeleton = s.skeleton := by
  unfold launch at launched
  split at launched
  · cases launched
  · cases launched
    rename_i script
    have jobs : ∀ f : Run → Run, (∀ r, (f r).job = r.job ∧ (f r).isDestroyed = r.isDestroyed) →
        (s.runs.modify run f).map (·.job) = s.runs.map (·.job) ∧
          (s.runs.modify run f).map (·.isDestroyed) = s.runs.map (·.isDestroyed) :=
      fun f keeps => ⟨map_modify_self (fun r => (keeps r).1) _ _,map_modify_self (fun r => (keeps r).2) _ _⟩
    have kept := jobs (fun r =>
      { r.produce 0 s.script.produces with process := some s.processes.length, stage := .running })
      (fun r => job_produce r _ _)
    simp [skeleton,spawn,Task.isRetirement,kept]

@[simp] theorem skeleton_signalRun (run : Nat) (pause : Bool) (source target : Stage) :
    (s.signalRun run pause source target).1.skeleton = s.skeleton := by
  unfold signalRun
  split
  · rfl
  · split
    · split
      · rename_i sent
        rw [skeleton_onRun]
        rotate_left
        · exact fun _ => rfl
        · exact fun _ => rfl
        simp only [signal?,Option.bind_eq_bind,Option.bind_eq_some_iff] at sent
        obtain ⟨_,_,_,_,_,_,same⟩ := sent
        cases same
        rfl
      · rfl
    · rfl

/-! ### Tasks -/

theorem teardown_keeps_skeleton (clock : Clock) (run : Nat) (phase : Teardown) :
    (phase.turn clock run s).Leads (fun t _ => t.skeleton = s.skeleton) (fun t _ => t.skeleton = s.skeleton) := by
  cases phase with
  | start =>
    unfold Teardown.turn
    dsimp only
    split
    · exact s.skeleton_noteExit run
    · rfl
  | terminating process wake =>
    unfold Teardown.turn
    dsimp only
    split
    · trivial
    · exact (Teardown.finish s process).skeleton_noteExit run
  | clearing => exact s.skeleton_removeOutput run

/-- A task that is no retirement leaves the skeleton as it is, and does not become a retirement. -/
theorem task_keeps_skeleton (clock : Clock) {task : Task} (other : task.isRetirement = false) :
    (task.turn clock s).Leads (fun t next => t.skeleton = s.skeleton ∧ next.isRetirement = false)
      (fun t _ => t.skeleton = s.skeleton) := by
  cases task with
  | watch run process =>
    unfold Task.turn
    dsimp only
    split
    · exact s.skeleton_noteExit run
    · trivial
  | teardown run phase =>
    exact (s.teardown_keeps_skeleton clock run phase).within (fun _ _ kept => ⟨kept,rfl⟩) (fun _ _ kept => kept)
  | retirement entry phase => cases other
  | _ => trivial

theorem skeleton_setTask {number : Nat} {task : Task} (other : task.isRetirement = false)
    (working : s.skeleton.isShuttingDown = false) :
    State.skeleton { s with tasks := s.tasks.set number task } = s.skeleton := by
  have quiet : (s.tasks.set number task).any Task.isRetirement = false := by
    rw [List.any_eq_false]
    intro task' member
    rcases List.mem_or_eq_of_mem_set member with old | rfl
    · exact List.any_eq_false.mp working task' old
    · simp [other]
  simp only [skeleton,quiet]
  exact congrArg _ working.symm

/-- What a task leads to, it leads to when it has its turn among the others. -/
theorem taskTurn?_leads {s t : State} {clock : Clock} {number : Nat} (on : Task → State → Task → Prop)
    (turned : s.taskTurn? clock number = some t)
    (leads : ∀ task, s.tasks[number]? = some task →
      (task.turn clock s).Leads (on task) (fun u destroyed => on task u (.over destroyed))) :
    ∃ task u next, s.tasks[number]? = some task ∧ on task u next ∧ t = { u with tasks := u.tasks.set number next } := by
  simp only [taskTurn?,Option.bind_eq_bind,Option.bind_eq_some_iff] at turned
  obtain ⟨task,found,turned⟩ := turned
  have leads := leads task found
  cases led : task.turn clock s with
  | blocked wake => simp [led] at turned
  | goesOn u next =>
    rw [led] at leads
    simp only [led,Option.some.injEq] at turned
    exact ⟨task,u,next,found,leads,turned.symm⟩
  | ends u destroyed =>
    rw [led] at leads
    simp only [led,Option.some.injEq] at turned
    exact ⟨task,u,.over destroyed,found,leads,turned.symm⟩

/-- Unless the table is shut down, no task retires an entry. -/
theorem other_of_working {s : State} (working : s.skeleton.isShuttingDown = false) {number : Nat} {task : Task}
    (here : s.tasks[number]? = some task) : task.isRetirement = false := by
  simpa using List.any_eq_false.mp working task (List.mem_of_getElem? here)

/-- Unless the table is shut down, its tasks leave the skeleton as it is. -/
theorem skeleton_taskTurn {clock : Clock} {number : Nat} {t : State}
    (working : s.skeleton.isShuttingDown = false) (turned : s.taskTurn? clock number = some t) :
    t.skeleton = s.skeleton := by
  obtain ⟨_,u,next,_,⟨kept,stays⟩,rfl⟩ := taskTurn?_leads
    (fun _ u next => u.skeleton = s.skeleton ∧ next.isRetirement = false) turned fun task here =>
      (s.task_keeps_skeleton clock (other_of_working working here)).mono (fun _ _ kept => kept) fun _ _ kept => ⟨kept,rfl⟩
  rw [skeleton_setTask u stays (by rw [kept]; exact working),kept]

theorem skeleton_event (event : Event) : (event.apply s).skeleton = s.skeleton := by
  cases event with
  | files run output =>
    apply skeleton_onRun <;> exact fun _ => rfl
  | _ => rfl

end State
end Playout.Playback
