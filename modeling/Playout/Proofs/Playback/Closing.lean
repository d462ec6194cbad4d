import Mathlib.Data.List.Nodup
import Playout.Proofs.Playback.Asides
import Playout.Proofs.Playback.Retirement

/-!
Shutting down. The table is emptied first, and the entries that were in it are retired
one by one, each by a task of its own that has to come to the lock of the entry. Until
then runs may still be started there by those who hold the entry, and nothing finds the
entry any more but its task. In every order of these steps and those of the traffic,
all runs are destroyed in the end: an entry that is bound to a run is one that some
task is still to retire (`Closing.Holds`).
-/
namespace Playout.Playback

variable {policy : Policy} {conduct : Conduct} {clock : Clock} {timeout : Nat} {s t u : State} {w w' : Traffic}
  {table : List (Key × Nat)} {found entries : List Nat} {first entry : Nat}

/-- Players that ask for nothing any more. -/
def Conduct.closed : Conduct := ⟨fun _ => False,fun _ _ => True⟩

/-- Whether a call asks for a session. -/
def Call.Acquires : Call → Prop
  | acquire .. => True
  | bind .. | mark .. | report .. | cleanUp _ => False

/-- The entry of a task that is about to take its lock, if a run is bound there. -/
def Task.finds (s : State) : Task → List Nat
  | retirement entry (.locking ticket) => ((s.locked? entry ticket).bind (·.run)).elim [] fun _ => [entry]
  | retirement _ .start | retirement _ (.tearing ..) | watch .. | teardown .. | .over _ => []

/-- The entry of one of the tasks, if it is about to take its lock and a run is bound there. -/
def State.finds (s : State) (number : Nat) : List Nat := s.tasks[number]?.elim [] (·.finds s)

theorem Task.finds_of_other {task : Task} (other : task.isRetirement = false) : task.finds s = [] := by
  cases task with
  | retirement => cases other
  | _ => rfl

/-- The traffic on a table that is shut down. -/
structure Closing where
  traffic : Traffic
  /-- Where the shutdown waits, or what it has come to. -/
  stand : Shutdown ⊕ Summary := .inl .begin
  /-- The entries that a run was bound to when their tasks took their locks. -/
  found : List Nat := []

namespace Closing

/-- One step of the traffic, of one of the tasks, or of the shutdown. -/
inductive Step (policy : Policy) (timeout : Nat) : Closing → Closing → Prop
  | other {c : Closing} {w : Traffic} (step : c.traffic.Step policy .closed w)
      (quiet : ∀ number, c.traffic.state.taskTurn? c.traffic.clock number ≠ some w.state) :
      Step policy timeout c { c with traffic := w }
  | task {c : Closing} (number : Nat) {s : State}
      (turned : c.traffic.state.taskTurn? c.traffic.clock number = some s) :
      Step policy timeout c
        { c with traffic := { c.traffic with state := s }, found := c.found ++ c.traffic.state.finds number }
  | goesOn {c : Closing} (phase : Shutdown) (here : c.stand = .inl phase) {s : State} {next : Shutdown}
      (turned : phase.turn c.traffic.clock timeout c.traffic.state = .goesOn s next) :
      Step policy timeout c { c with traffic := { c.traffic with state := s }, stand := .inl next }
  | ends {c : Closing} (phase : Shutdown) (here : c.stand = .inl phase) {s : State} {summary : Summary}
      (turned : phase.turn c.traffic.clock timeout c.traffic.state = .ends s summary) :
      Step policy timeout c { c with traffic := { c.traffic with state := s }, stand := .inr summary }

/-- A shutdown begins on a table with any history, while nobody asks for a session, and some steps are taken. -/
def Reachable (policy : Policy) (timeout : Nat) (c : Closing) : Prop :=
  ∃ w : Traffic, w.Reachable policy .free ∧ (∀ call ∈ w.calls, ¬ call.Acquires) ∧
    Relation.ReflTransGen (Step policy timeout) { traffic := w } c

end Closing

variable {c c' : Closing}

/-! ### The traffic on a remembered table -/

namespace State.Spawns

theorem isShuttingDown (spawns : s.Spawns t) : t.skeleton.isShuttingDown = s.skeleton.isShuttingDown := by
  obtain ⟨more,tasks,others⟩ := spawns
  have none : more.any Task.isRetirement = false := List.any_eq_false.mpr fun task member => by simp [others task member]
  simp only [skeleton,tasks,List.any_append,none,Bool.or_false]

theorem retiring (spawns : s.Spawns t) : t.retiring = s.retiring := by
  obtain ⟨more,tasks,others⟩ := spawns
  have none : more.flatMap Task.grips = [] := List.flatMap_eq_nil_iff.mpr fun task member =>
    Task.grips_of_other (others task member)
  rw [State.retiring,State.retiring,tasks,List.flatMap_append,none,List.append_nil]

end State.Spawns

theorem State.retiring_of_quiet (quiet : s.skeleton.isShuttingDown = false) : s.retiring = 0 := by
  have none : s.tasks.flatMap Task.grips = [] := List.flatMap_eq_nil_iff.mpr fun task member =>
    Task.grips_of_other (by simpa using List.any_eq_false.mp quiet task member)
  rw [retiring,none]
  rfl

theorem Call.turn_acquires (s : State) {call : Call} (other : ¬ call.Acquires) :
    (call.turn policy clock s).Leads (fun _ next => ¬ next.Acquires) (fun _ _ => True) := by
  cases call with
  | acquire demand phase => exact absurd trivial other
  | bind grant phase => exact (Turn.Leads.any _).within (fun _ _ _ => other) fun _ r _ => by cases r <;> trivial
  | mark lease index highest phase => exact (Turn.Leads.any _).within (fun _ _ _ => other) fun _ _ _ => trivial
  | report id found phase => exact (Turn.Leads.any _).within (fun _ _ _ => other) fun _ _ _ => trivial
  | cleanUp phase => exact (Turn.Leads.any _).within (fun _ _ _ => other) fun _ _ _ => trivial

/-- A call that asks for no session wants something only of an entry that it was given. -/
theorem Call.grip_given {call : Call} (other : ¬ call.Acquires) (free : call.grip.entry = none) :
    call.grip.demand = none := by
  rw [call.grip_demand]
  cases call with
  | acquire demand phase => exact absurd trivial other
  | bind grant phase =>
    simp only [grip,Bind.grip] at free
    cases pending : grant.lease.pending with
    | none => exact pending
    | some demand =>
      rw [pending] at free
      cases phase with
      | starting ticket first phase => cases phase <;> cases free
      | _ => cases free
  | _ => rfl

namespace Traffic

/-- The traffic with a remembered table. -/
def recalled (w : Traffic) (table : List (Key × Nat)) : Traffic := { w with state := w.state.recalled table }

theorem Change.retires (change : Change policy conduct w w') : w.state.skeleton.Retires w'.state.skeleton := by
  cases change with
  | keeps skeleton | joins skeleton | parts skeleton => exact .of_same (by rw [skeleton])
  | moves before move => exact move.keeps_retired

theorem Change.recalled (change : Change policy conduct w w')
    (given : ∀ g ∈ w.grips, g.entry = none → g.demand = none) (sub : w.state.table ⊆ table) :
    ∃ keeps : Key × Nat → Bool, w'.state.table = w.state.table.filter keeps ∧
      Change policy conduct (w.recalled table) (w'.recalled (table.filter keeps)) := by
  have stays (same : w'.state.skeleton = w.state.skeleton)
      (change : (w'.state.recalled table).skeleton = (w.state.recalled table).skeleton →
        Change policy conduct (w.recalled table) (w'.recalled table)) :
      ∃ keeps : Key × Nat → Bool, w'.state.table = w.state.table.filter keeps ∧
        Change policy conduct (w.recalled table) (w'.recalled (table.filter keeps)) := by
    refine ⟨fun _ => true,?_,?_⟩
    · rw [List.filter_true]
      exact congrArg Skeleton.table same
    · rw [List.filter_true]
      exact change (by rw [State.skeleton_recalled,State.skeleton_recalled,same])
  cases change with
  | keeps skeleton makers grips => exact stays skeleton fun same => .keeps same makers grips
  | joins skeleton makers grips idle visits wants given =>
    exact stays skeleton fun same => .joins same makers grips idle visits wants given
  | parts skeleton makers grips idle => exact stays skeleton fun same => .parts same makers grips idle
  | moves before move covers after makers =>
    obtain ⟨keeps,tables,moved⟩ := move.recalled (given _ (before ▸ Multiset.mem_cons_self _ _)) sub
    exact ⟨keeps,tables,.moves before moved covers after makers⟩

theorem grips_given (asides : ∀ call ∈ w.calls, ¬ call.Acquires) : ∀ g ∈ w.grips, g.entry = none → g.demand = none := by
  intro g member
  rcases Multiset.mem_add.mp member with going | out
  · obtain ⟨call,known,rfl⟩ := Multiset.mem_map.mp going
    exact Call.grip_given (asides call known)
  · obtain ⟨grant,_,rfl⟩ := Multiset.mem_map.mp out
    exact fun free => by cases free

/-- A step is the turn of a task, or adds tasks, none that retires an entry. -/
theorem Step.spawns_or_turns (step : Step policy conduct w w') :
    w.state.Spawns w'.state ∨
      ∃ number s, w.state.taskTurn? w.clock number = some s ∧ w' = { w with state := s } := by
  cases step with
  | drop grant grants held => exact .inl (.of_same rfl)
  | goesOn call calls going turned =>
    have spawns := @Call.turn_spawns policy w.clock w.state call
    rw [turned] at spawns
    exact .inl spawns
  | ends call calls going turned =>
    have spawns := @Call.turn_spawns policy w.clock w.state call
    rw [turned] at spawns
    exact .inl spawns
  | task number turned => exact .inr ⟨number,_,turned,rfl⟩
  | happen event =>
    refine .inl (.of_same ?_)
    cases event <;> rfl
  | _ => exact .inl (.refl w.state)

theorem Step.spawns (step : Step policy conduct w w')
    (quiet : ∀ number, w.state.taskTurn? w.clock number ≠ some w'.state) : w.state.Spawns w'.state := by
  rcases step.spawns_or_turns with spawns | ⟨number,s,turned,rfl⟩
  · exact spawns
  · exact absurd turned (quiet number)

/-- When nobody asks for sessions any more, it stays so. -/
theorem Step.asides (step : Step policy .closed w w') (asides : ∀ call ∈ w.calls, ¬ call.Acquires) :
    ∀ call ∈ w'.calls, ¬ call.Acquires := by
  cases step with
  | ask demand asked => exact asked.elim
  | bind | mark | report | cleanUp => exact Multiset.forall_mem_cons.mpr ⟨id,asides⟩
  | goesOn call calls going turned =>
    rw [going,Multiset.forall_mem_cons] at asides
    have other := @Call.turn_acquires policy w.clock w.state call asides.1
    rw [turned] at other
    exact Multiset.forall_mem_cons.mpr ⟨other,asides.2⟩
  | ends call calls going turned =>
    rw [going,Multiset.forall_mem_cons] at asides
    exact asides.2
  | _ => exact asides

/-- A step that is no turn of a task keeps what is shared out fitting together, on the remembered table. -/
theorem Step.recalled (step : Step policy conduct w w')
    (quiet : ∀ number, w.state.taskTurn? w.clock number ≠ some w'.state) (asides : ∀ call ∈ w.calls, ¬ call.Acquires)
    (sub : w.state.table ⊆ table)
    (sound : Sound (w.state.recalled table).skeleton w.makers (w.grips + w.state.retiring)) :
    ∃ keeps : Key × Nat → Bool, w'.state.table = w.state.table.filter keeps ∧
      Sound (w'.state.recalled (table.filter keeps)).skeleton w'.makers (w'.grips + w'.state.retiring) := by
  have change := step.change_of_still fun number turned => absurd turned (quiet number)
  obtain ⟨keeps,tables,recalled⟩ := change.recalled (grips_given asides) sub
  refine ⟨keeps,tables,?_⟩
  rw [(step.spawns quiet).retiring]
  exact recalled.sound sound

end Traffic

/-! ### The entries that are to be retired -/

/-- Every entry that is remembered and not retired is one of those that are to be retired, and no task does so yet. -/
structure State.Awaits (s : State) (table : List (Key × Nat)) (entries : List Nat) : Prop where
  quiet : s.skeleton.isShuttingDown = false
  distinct : entries.Nodup
  inside : ∀ entry ∈ entries, entry < s.skeleton.retirements.length
  listed : ∀ p ∈ table, s.skeleton.isRetired p.2 = false → p.2 ∈ entries

/-- What the task of an entry may be at, with the entries that were found bound. -/
def Task.Tends (s : State) (found : List Nat) (entry : Nat) : Task → Prop
  | retirement other .start | retirement other (.locking _) => other = entry ∧ entry ∉ found
  | retirement other (.tearing ..) => other = entry ∧ s.skeleton.isRetired entry = true ∧ entry ∈ found
  | .over destroyed => s.skeleton.isRetired entry = true ∧ (destroyed = true ↔ entry ∈ found)
  | watch .. | teardown .. => False

/-- Every entry that is remembered and not retired has a task that is still to take its lock; the tasks are numbered
    from `first` in the order of the entries. -/
structure State.Tends (s : State) (table : List (Key × Nat)) (first : Nat) (entries found : List Nat) : Prop where
  distinct : entries.Nodup
  once : found.Nodup
  known : found ⊆ entries
  tasks : ∀ (i entry : Nat), entries[i]? = some entry → ∃ task, s.tasks[first + i]? = some task ∧ task.Tends s found entry
  others : ∀ (number : Nat) (task : Task), s.tasks[number]? = some task → task.isRetirement = true →
    ∃ i entry, entries[i]? = some entry ∧ number = first + i
  listed : ∀ p ∈ table, s.skeleton.isRetired p.2 = false → p.2 ∈ entries

namespace Skeleton.Retires

variable {k k' : Skeleton}

theorem listed (retires : k.Retires k') (listed : ∀ p ∈ table, k.isRetired p.2 = false → p.2 ∈ entries)
    (keeps : Key × Nat → Bool) : ∀ p ∈ table.filter keeps, k'.isRetired p.2 = false → p.2 ∈ entries := by
  intro p member working
  refine listed p (List.mem_of_mem_filter member) (Bool.eq_false_iff.mpr fun gone => ?_)
  rw [retires.retired p.2 gone] at working
  cases working

end Skeleton.Retires

theorem State.Awaits.goes (awaits : s.Awaits table entries) (quiet : t.skeleton.isShuttingDown = false)
    (retires : s.skeleton.Retires t.skeleton) (keeps : Key × Nat → Bool) : t.Awaits (table.filter keeps) entries where
  quiet := quiet
  distinct := awaits.distinct
  inside entry member := Nat.lt_of_lt_of_le (awaits.inside entry member) retires.length
  listed := retires.listed awaits.listed keeps

namespace Task.Tends

variable {task : Task}

theorem mono (tends : task.Tends s found entry) (retires : s.skeleton.Retires t.skeleton) :
    task.Tends t found entry := by
  cases task with
  | retirement other phase =>
    cases phase with
    | tearing run phase => exact ⟨tends.1,retires.retired entry tends.2.1,tends.2.2⟩
    | _ => exact tends
  | watch | teardown => exact tends
  | _ => exact ⟨retires.retired entry tends.1,tends.2⟩

/-- What becomes of other entries does not matter. -/
theorem other (tends : task.Tends s found entry) {more : List Nat} (apart : entry ∉ more) :
    task.Tends s (found ++ more) entry := by
  have same : entry ∈ found ++ more ↔ entry ∈ found := by simp [apart]
  cases task with
  | retirement other phase =>
    cases phase with
    | tearing run phase => exact ⟨tends.1,tends.2.1,same.mpr tends.2.2⟩
    | _ => exact ⟨tends.1,fun member => tends.2 (same.mp member)⟩
  | watch | teardown => exact tends
  | _ => exact ⟨tends.1,tends.2.trans same.symm⟩

/-- A task finds its own entry, which was not found before, or none. -/
theorem finds (tends : task.Tends s found entry) :
    task.finds s = [] ∨ (task.finds s = [entry] ∧ entry ∉ found) := by
  cases task with
  | retirement other phase =>
    cases phase with
    | locking ticket =>
      rw [Task.finds]
      cases (s.locked? other ticket).bind (·.run) with
      | none => exact .inl rfl
      | some run => exact .inr ⟨congrArg (fun e => [e]) tends.1,tends.2⟩
    | _ => exact .inl rfl
  | _ => exact .inl rfl

end Task.Tends

theorem Retirement.turn_tends {phase : Retirement} (tends : Task.Tends s found entry (.retirement entry phase)) :
    (phase.turn clock entry s).Leads
      (fun t next => Task.Tends t (found ++ Task.finds s (.retirement entry phase)) entry (.retirement entry next))
      (fun t destroyed => Task.Tends t (found ++ Task.finds s (.retirement entry phase)) entry (.over destroyed)) := by
  cases phase with
  | start =>
    have same : found ++ Task.finds s (.retirement entry .start) = found := List.append_nil found
    rw [same]
    exact tends
  | locking ticket =>
    unfold turn
    dsimp only
    split
    · trivial
    · rename_i e locked
      have finds : Task.finds s (.retirement entry (.locking ticket)) = e.run.elim [] fun _ => [entry] := by
        rw [Task.finds,locked]
        rfl
      have inside : entry < s.skeleton.retirements.length := by
        rw [State.locked?,Option.filter_eq_some_iff] at locked
        simpa [State.skeleton] using (List.getElem?_eq_some_iff.mp locked.1).1
      have retired : (s.vacate entry ticket).skeleton.isRetired entry = true := by
        rw [State.skeleton_vacate]
        exact (Skeleton.isRetired_retire inside entry).trans (by rw [beq_self_eq_true,Bool.true_or])
      split
      · rename_i unbound
        rw [finds,unbound]
        exact ⟨retired,by simpa using tends.2⟩
      · rename_i run has
        have gone := ((State.Withdraws.of_skeleton rfl rfl : (s.vacate entry ticket).Withdraws _).destroyed run).retires.retired
          entry retired
        rw [finds,has]
        have member : entry ∈ found ++ [entry] := List.mem_append_right found List.mem_cons_self
        split
        · rename_i u phase destroyed
          rw [State.vacate,destroyed] at gone
          exact ⟨rfl,gone,member⟩
        · rename_i u destroyed
          rw [State.vacate,destroyed] at gone
          exact ⟨gone,fun _ => member,fun _ => rfl⟩
  | tearing run phase =>
    have same : found ++ Task.finds s (.retirement entry (.tearing run phase)) = found := List.append_nil found
    rw [same]
    exact (phase.turn_withdraws s run).within (fun _ _ withdraws => tends.mono withdraws.retires)
      fun _ _ withdraws => ⟨withdraws.retires.retired entry tends.2.1,fun _ => tends.2.2,fun _ => rfl⟩

/-- The task of an entry comes to its end by retiring the entry, and says whether it found a run there. -/
theorem Task.turn_tends {task : Task} (tends : task.Tends s found entry) :
    (task.turn clock s).Leads (fun t next => next.Tends t (found ++ task.finds s) entry)
      (fun t destroyed => Task.Tends t (found ++ task.finds s) entry (.over destroyed)) := by
  cases task with
  | retirement other phase =>
    have same : other = entry := by cases phase <;> exact tends.1
    subst same
    exact (Retirement.turn_tends tends).within (fun _ _ tends => tends) fun _ _ tends => tends
  | watch | teardown => exact tends.elim
  | _ => trivial

namespace State.Tends

/-- Tasks that retire no entries come in addition. -/
theorem goes (tends : s.Tends table first entries found) (spawns : s.Spawns t)
    (retires : s.skeleton.Retires t.skeleton) (keeps : Key × Nat → Bool) :
    t.Tends (table.filter keeps) first entries found where
  distinct := tends.distinct
  once := tends.once
  known := tends.known
  tasks i entry here := by
    obtain ⟨more,tasks,_⟩ := spawns
    obtain ⟨task,at_task,working⟩ := tends.tasks i entry here
    refine ⟨task,?_,working.mono retires⟩
    rw [tasks,List.getElem?_append_left (List.getElem?_eq_some_iff.mp at_task).1]
    exact at_task
  others number task here retirement := by
    obtain ⟨more,tasks,others⟩ := spawns
    rw [tasks,List.getElem?_append] at here
    split at here
    · exact tends.others number task here retirement
    · rw [others task (List.mem_of_getElem? here)] at retirement
      cases retirement
  listed := retires.listed tends.listed keeps

/-- The task of one of the entries has its turn. -/
theorem turn_own (tends : s.Tends table first entries found) {i : Nat} (at_entry : entries[i]? = some entry)
    (turned : s.taskTurn? clock (first + i) = some t) (keeps : Key × Nat → Bool) :
    t.Tends (table.filter keeps) first entries (found ++ s.finds (first + i)) := by
  have retires := (taskTurn_withdraws turned).2
  obtain ⟨task,here,working⟩ := tends.tasks i entry at_entry
  have finds : s.finds (first + i) = task.finds s := by
    rw [State.finds,here]
    rfl
  obtain ⟨task',u,next,here',⟨withdraws,moved⟩,rfl⟩ := taskTurn?_leads
    (fun task u next => s.Withdraws u ∧ next.Tends u (found ++ task.finds s) entry) turned fun task' here' => by
      cases here.symm.trans here'
      exact (task.turn_withdraws s).and (Task.turn_tends working)
  cases here.symm.trans here'
  have inside : first + i < s.tasks.length := (List.getElem?_eq_some_iff.mp here).1
  rw [finds]
  refine ⟨tends.distinct,?once,?known,?tasks,?others,retires.listed tends.listed keeps⟩
  case once =>
    rcases working.finds with none | ⟨one,new⟩
    · rw [none,List.append_nil]
      exact tends.once
    · rw [one]
      exact tends.once.append (List.nodup_singleton entry) (List.disjoint_singleton.mpr new)
  case known =>
    refine List.append_subset.mpr ⟨tends.known,fun found' member => ?_⟩
    rcases working.finds with none | ⟨one,_⟩
    · rw [none] at member
      cases member
    · rw [one] at member
      rw [List.mem_singleton.mp member]
      exact List.mem_of_getElem? at_entry
  case tasks =>
    intro j other at_other
    by_cases same : j = i
    · subst same
      cases at_entry.symm.trans at_other
      refine ⟨next,?_,moved.mono (.of_same rfl)⟩
      rw [withdraws.tasks]
      exact List.getElem?_set_self inside
    · obtain ⟨task',here',working'⟩ := tends.tasks j other at_other
      have apart : other ≠ entry := by
        rintro rfl
        exact same ((List.getElem?_inj (List.getElem?_eq_some_iff.mp at_other).1 tends.distinct).mp
          (at_other.trans at_entry.symm))
      have unfound : other ∉ task.finds s := by
        rcases working.finds with none | ⟨one,_⟩
        · rw [none]
          exact List.not_mem_nil
        · rw [one]
          exact fun member => apart (List.mem_singleton.mp member)
      refine ⟨task',?_,(working'.other unfound).mono retires⟩
      rw [withdraws.tasks,List.getElem?_set_ne (by omega)]
      exact here'
  case others =>
    intro number task' here' retirement
    rw [withdraws.tasks] at here'
    by_cases same : first + i = number
    · exact ⟨i,entry,at_entry,same.symm⟩
    · rw [List.getElem?_set_ne same] at here'
      exact tends.others number task' here' retirement

/-- A task that retires no entry has its turn. -/
theorem turn_other (tends : s.Tends table first entries found) {number : Nat}
    (elsewhere : ∀ i entry, entries[i]? = some entry → number ≠ first + i)
    (turned : s.taskTurn? clock number = some t) (keeps : Key × Nat → Bool) :
    t.Tends (table.filter keeps) first entries (found ++ s.finds number) := by
  have retires := (taskTurn_withdraws turned).2
  obtain ⟨task,u,next,here,⟨withdraws,finds,stays⟩,rfl⟩ := taskTurn?_leads
    (fun task u next => s.Withdraws u ∧ task.finds s = [] ∧ next.isRetirement = false) turned fun task here => by
      have other : task.isRetirement = false := by
        refine Bool.eq_false_iff.mpr fun retirement => ?_
        obtain ⟨i,entry,at_entry,same⟩ := tends.others number task here retirement
        exact elsewhere i entry at_entry same
      exact ((task.turn_withdraws s).and (s.task_keeps_skeleton clock other)).mono
        (fun _ _ both => ⟨both.1,Task.finds_of_other other,both.2.2⟩) fun _ _ both => ⟨both.1,Task.finds_of_other other,rfl⟩
  have none : s.finds number = [] := by
    rw [State.finds,here]
    exact finds
  rw [none,List.append_nil]
  refine ⟨tends.distinct,tends.once,tends.known,?tasks,?others,retires.listed tends.listed keeps⟩
  case tasks =>
    intro j other at_other
    obtain ⟨task',here',working⟩ := tends.tasks j other at_other
    refine ⟨task',?_,working.mono retires⟩
    rw [withdraws.tasks,List.getElem?_set_ne (elsewhere j other at_other)]
    exact here'
  case others =>
    intro number' task' here' retirement
    rw [withdraws.tasks] at here'
    by_cases same : number = number'
    · subst same
      rw [List.getElem?_set_self (List.getElem?_eq_some_iff.mp here).1] at here'
      cases here'
      cases stays.symm.trans retirement
    · rw [List.getElem?_set_ne same] at here'
      exact tends.others number' task' here' retirement

theorem turn (tends : s.Tends table first entries found) {number : Nat} (turned : s.taskTurn? clock number = some t)
    (keeps : Key × Nat → Bool) : t.Tends (table.filter keeps) first entries (found ++ s.finds number) := by
  by_cases own : ∃ i entry, entries[i]? = some entry ∧ number = first + i
  · obtain ⟨i,entry,at_entry,rfl⟩ := own
    exact tends.turn_own at_entry turned keeps
  · exact tends.turn_other (fun i entry at_entry same => own ⟨i,entry,at_entry,same⟩) turned keeps

end State.Tends

/-! ### Where a shutdown stands -/

/-- How the table and the tasks are where a shutdown stands, with the table as it is remembered. -/
def State.Stands (s : State) (table : List (Key × Nat)) (found : List Nat) : Shutdown ⊕ Summary → Prop
  | .inl .begin => s.table = table ∧ s.skeleton.isShuttingDown = false ∧ found = []
  | .inl (.clearing entries) => s.table = table ∧ s.Awaits table entries ∧ found = []
  | .inl (.forgetting entries) => s.table = [] ∧ s.Awaits table entries ∧ found = []
  | .inl (.joining tasks _) =>
    s.table = [] ∧ ∃ first entries, tasks = List.range' first entries.length ∧ s.Tends table first entries found
  | .inr _ => s.table = [] ∧ ∃ first entries, s.Tends table first entries found

namespace State.Stands

variable {stand : Shutdown ⊕ Summary} {makers : List Key} {grips : Multiset Grip}

theorem sub (stands : s.Stands table found stand) : s.table ⊆ table := by
  have none (empty : s.table = []) : s.table ⊆ table := by
    rw [empty]
    exact List.nil_subset _
  cases stand with
  | inr summary => exact none stands.1
  | inl phase =>
    cases phase with
    | begin => exact fun _ member => stands.1 ▸ member
    | clearing entries => exact fun _ member => stands.1 ▸ member
    | forgetting entries => exact none stands.1
    | joining tasks deadline => exact none stands.1

/-- Something happens that is no turn of a task. -/
theorem goes (stands : s.Stands table found stand) {keeps : Key × Nat → Bool} (tables : t.table = s.table.filter keeps)
    (spawns : s.Spawns t) (retires : s.skeleton.Retires t.skeleton) : t.Stands (table.filter keeps) found stand := by
  have empty (same : s.table = []) : t.table = [] := by rw [tables,same,List.filter_nil]
  have full (same : s.table = table) : t.table = table.filter keeps := by rw [tables,same]
  have awaits {entries : List Nat} (awaits : s.Awaits table entries) : t.Awaits (table.filter keeps) entries :=
    awaits.goes (spawns.isShuttingDown.trans awaits.quiet) retires keeps
  cases stand with
  | inr summary =>
    obtain ⟨same,first,entries,tends⟩ := stands
    exact ⟨empty same,first,entries,tends.goes spawns retires keeps⟩
  | inl phase =>
    cases phase with
    | begin => exact ⟨full stands.1,spawns.isShuttingDown.trans stands.2.1,stands.2.2⟩
    | clearing entries => exact ⟨full stands.1,awaits stands.2.1,stands.2.2⟩
    | forgetting entries => exact ⟨empty stands.1,awaits stands.2.1,stands.2.2⟩
    | joining tasks deadline =>
      obtain ⟨same,first,entries,numbers,tends⟩ := stands
      exact ⟨empty same,first,entries,numbers,tends.goes spawns retires keeps⟩

theorem finds_of_quiet (quiet : s.skeleton.isShuttingDown = false) (number : Nat) : s.finds number = [] := by
  rw [State.finds]
  cases here : s.tasks[number]? with
  | none => rfl
  | some task => exact Task.finds_of_other (other_of_working quiet here)

/-- One of the tasks has its turn. -/
theorem turn (stands : s.Stands table found stand) {number : Nat}
    (sound : Sound (s.recalled table).skeleton makers (grips + s.retiring)) (turned : s.taskTurn? clock number = some t) :
    ∃ keeps : Key × Nat → Bool, Sound (t.recalled (table.filter keeps)).skeleton makers (grips + t.retiring) ∧
      t.Stands (table.filter keeps) (found ++ s.finds number) stand := by
  obtain ⟨same,retires⟩ := taskTurn_withdraws turned
  -- before the tasks are there that retire entries, the others leave alone what is shared out
  have still (quiet : s.skeleton.isShuttingDown = false) (stays : t.skeleton = s.skeleton → t.Stands table found stand) :
      ∃ keeps : Key × Nat → Bool, Sound (t.recalled (table.filter keeps)).skeleton makers (grips + t.retiring) ∧
        t.Stands (table.filter keeps) (found ++ s.finds number) stand := by
    have kept := s.skeleton_taskTurn quiet turned
    refine ⟨fun _ => true,?_,?_⟩
    · rw [List.filter_true,skeleton_recalled,kept,← skeleton_recalled,retiring_of_quiet (by rw [kept,quiet]),
        ← retiring_of_quiet quiet]
      exact sound
    · rw [List.filter_true,finds_of_quiet quiet,List.append_nil]
      exact stays kept
  have awaits {entries : List Nat} (awaits : s.Awaits table entries) (kept : t.skeleton = s.skeleton) :
      t.Awaits table entries := by
    have goes := awaits.goes (t := t) (by rw [kept,awaits.quiet]) retires fun _ => true
    rw [List.filter_true] at goes
    exact goes
  cases stand with
  | inr summary =>
    obtain ⟨empty,first,entries,tends⟩ := stands
    obtain ⟨keeps,sound⟩ := taskTurn_sound turned sound
    exact ⟨keeps,sound,same.trans empty,first,entries,tends.turn turned keeps⟩
  | inl phase =>
    cases phase with
    | begin => exact still stands.2.1 fun kept => ⟨same.trans stands.1,by rw [kept,stands.2.1],stands.2.2⟩
    | clearing entries =>
      exact still stands.2.1.quiet fun kept => ⟨same.trans stands.1,awaits stands.2.1 kept,stands.2.2⟩
    | forgetting entries =>
      exact still stands.2.1.quiet fun kept => ⟨same.trans stands.1,awaits stands.2.1 kept,stands.2.2⟩
    | joining tasks deadline =>
      obtain ⟨empty,first,entries,numbers,tends⟩ := stands
      obtain ⟨keeps,sound⟩ := taskTurn_sound turned sound
      exact ⟨keeps,sound,same.trans empty,first,entries,numbers,tends.turn turned keeps⟩

end State.Stands

/-- The entries of a table are different. -/
theorem Listed.distinct {k : Skeleton} {makers : List Key} (listed : Listed k makers) : (k.table.map (·.2)).Nodup := by
  refine (List.Nodup.of_map _ listed.keys).map_on ?_
  rintro ⟨key,entry⟩ found ⟨key',entry'⟩ found' same
  cases same
  rw [listed.names key key' entry found found']

/-- Entries that there are get tasks that are to retire them. -/
theorem Sound.serve {k : Skeleton} {makers : List Key} {grips : Multiset Grip} (sound : Sound k makers grips)
    {entries : List Nat} (inside : ∀ entry ∈ entries, entry < k.locks.length) :
    Sound k makers (grips + ↑((entries.map fun entry => Task.retirement entry .start).flatMap Task.grips)) := by
  induction entries with
  | nil => simpa using sound
  | cons entry entries ih =>
    obtain ⟨here,others⟩ := List.forall_mem_cons.mp inside
    have fits : Fits k makers { entry := some entry } :=
      Traffic.fits_new ⟨rfl,rfl,rfl⟩ rfl (fun _ wants => by cases wants) fun _ given => by cases given; exact here
    have joined := (ih others).join ⟨rfl,rfl,rfl⟩ fits
    rw [List.map_cons,List.flatMap_cons,Task.grips,List.singleton_append,← Multiset.cons_coe,Multiset.add_cons]
    exact joined

/-- The tasks are added that are to retire the entries. -/
theorem State.Awaits.tends (awaits : s.Awaits table entries) (owners : List (Nat × Nat)) :
    State.Tends { s with owners := owners, tasks := s.tasks ++ entries.map fun entry => .retirement entry .start } table
      s.tasks.length entries [] where
  distinct := awaits.distinct
  once := List.nodup_nil
  known := List.nil_subset _
  tasks i entry here := by
    refine ⟨.retirement entry .start,?_,rfl,List.not_mem_nil⟩
    rw [List.getElem?_append_right (Nat.le_add_right ..),Nat.add_sub_cancel_left,List.getElem?_map,here]
    rfl
  others number task here retirement := by
    rw [List.getElem?_append] at here
    split at here
    · exact absurd retirement (List.any_eq_false.mp awaits.quiet task (List.mem_of_getElem? here))
    · rename_i beyond
      rw [List.getElem?_map,Option.map_eq_some_iff] at here
      obtain ⟨entry,at_entry,_⟩ := here
      exact ⟨number - s.tasks.length,entry,at_entry,by omega⟩
  listed := awaits.listed

namespace Closing

/-- What holds of a table that is shut down: what is shared out fits together as if the table still had the entries that
    no task has taken over, and each of these is still to be retired. -/
structure Holds (c : Closing) (table : List (Key × Nat)) : Prop where
  sound : Sound (c.traffic.state.recalled table).skeleton c.traffic.makers (c.traffic.grips + c.traffic.state.retiring)
  asides : ∀ call ∈ c.traffic.calls, ¬ call.Acquires
  stands : c.traffic.state.Stands table c.found c.stand

/-- A shutdown takes its turn. -/
theorem Holds.proceeds (holds : c.Holds table) {phase : Shutdown} (here : c.stand = .inl phase) (timeout : Nat) :
    (phase.turn c.traffic.clock timeout c.traffic.state).Leads
      (fun s next => Holds { c with traffic := { c.traffic with state := s }, stand := .inl next } table)
      (fun s summary => Holds { c with traffic := { c.traffic with state := s }, stand := .inr summary } table) := by
  have sound := holds.sound
  have stands := holds.stands
  rw [here] at stands
  cases phase with
  | begin =>
    obtain ⟨same,quiet,none⟩ := stands
    have listed := sound.listed
    rw [State.skeleton_recalled] at listed
    refine ⟨sound,holds.asides,same,⟨quiet,?_,?_,?_⟩,none⟩
    · rw [same]
      exact listed.distinct
    · intro entry member
      obtain ⟨p,found,rfl⟩ := List.mem_map.mp member
      exact listed.retirements ▸ listed.table p (same ▸ found)
    · intro p member _
      exact List.mem_map_of_mem (same ▸ member)
  | clearing entries =>
    obtain ⟨same,awaits,none⟩ := stands
    exact ⟨sound,holds.asides,rfl,⟨awaits.quiet,awaits.distinct,awaits.inside,awaits.listed⟩,none⟩
  | forgetting entries =>
    obtain ⟨empty,awaits,none⟩ := stands
    have listed := sound.listed
    rw [State.skeleton_recalled] at listed
    have inside : ∀ entry ∈ entries, entry < c.traffic.state.skeleton.locks.length := fun entry member =>
      listed.retirements ▸ awaits.inside entry member
    rw [State.retiring_of_quiet awaits.quiet,Multiset.add_zero] at sound
    have unowned : ∀ p ∈ ([] : List (Nat × Nat)), p.2 < (c.traffic.state.recalled table).skeleton.locks.length :=
      fun _ none => by cases none
    have served := (sound.own unowned).serve inside
    refine ⟨?sound,holds.asides,empty,_,entries,rfl,none ▸ awaits.tends []⟩
    case sound =>
      rw [State.skeleton_recalled] at served ⊢
      have retiring : State.retiring { c.traffic.state with
          owners := [], tasks := c.traffic.state.tasks ++ entries.map fun entry => .retirement entry .start } =
          c.traffic.state.retiring + ↑((entries.map fun entry => Task.retirement entry .start).flatMap Task.grips) := by
        rw [State.retiring,List.flatMap_append,← Multiset.coe_add]
        rfl
      rw [retiring,State.retiring_of_quiet awaits.quiet,Multiset.zero_add]
      exact served
  | joining tasks deadline =>
    obtain ⟨empty,first,entries,_,tends⟩ := stands
    unfold Shutdown.turn
    dsimp only
    split
    · exact ⟨sound,holds.asides,empty,first,entries,tends⟩
    · trivial

theorem Holds.step (holds : c.Holds table) (step : c.Step policy timeout c') : ∃ table', c'.Holds table' := by
  cases step with
  | @other w step quiet =>
    obtain ⟨keeps,tables,sound⟩ := step.recalled quiet holds.asides holds.stands.sub holds.sound
    have retires := (step.change_of_still fun number turned => absurd turned (quiet number)).retires
    exact ⟨_,sound,step.asides holds.asides,holds.stands.goes tables (step.spawns quiet) retires⟩
  | task number turned =>
    obtain ⟨keeps,sound,stands⟩ := holds.stands.turn holds.sound turned
    exact ⟨_,sound,holds.asides,stands⟩
  | goesOn phase here turned =>
    have proceeds := holds.proceeds here timeout
    rw [turned] at proceeds
    exact ⟨table,proceeds⟩
  | ends phase here turned =>
    have proceeds := holds.proceeds here timeout
    rw [turned] at proceeds
    exact ⟨table,proceeds⟩

theorem holds_of_reachable (reached : c.Reachable policy timeout) : ∃ table, c.Holds table := by
  obtain ⟨w,before,asides,steps⟩ := reached
  induction steps with
  | refl =>
    have sound := Traffic.sound_of_reachable before
    have quiet := sound.listed.working
    refine ⟨w.state.table,?_,asides,rfl,quiet,rfl⟩
    have same : { w.state.skeleton with table := w.state.table, isShuttingDown := false } = w.state.skeleton := by
      rw [← quiet]
      rfl
    have alone : w.grips + w.state.retiring = w.grips := by rw [State.retiring_of_quiet quiet,Multiset.add_zero]
    rw [State.skeleton_recalled,same]
    exact alone.symm ▸ sound
  | tail _ step ih =>
    obtain ⟨table,holds⟩ := ih
    exact holds.step step

theorem Reachable.begins (timeout : Nat) (before : w.Reachable policy .free) (asides : ∀ call ∈ w.calls, ¬ call.Acquires) :
    Reachable policy timeout { traffic := w } := ⟨w,before,asides,.refl⟩

theorem Reachable.tail (reached : c.Reachable policy timeout) (step : c.Step policy timeout c') :
    c'.Reachable policy timeout := by
  obtain ⟨w,before,asides,steps⟩ := reached
  exact ⟨w,before,asides,steps.tail step⟩

/-! ### What a shutdown comes to -/

/-- Every step of the traffic, when nobody asks for sessions any more, is a step here. -/
theorem Step.of_traffic (step : c.traffic.Step policy .closed w) :
    ∃ found, c.Step policy timeout { c with traffic := w, found := found } := by
  rcases step.spawns_or_turns with spawns | ⟨number,s,turned,rfl⟩
  · exact ⟨c.found,.other step spawns.quiet⟩
  · exact ⟨_,.task number turned⟩

theorem Step.retires (step : c.Step policy timeout c') :
    c.traffic.state.skeleton.Retires c'.traffic.state.skeleton := by
  cases step with
  | other step quiet => exact (step.change_of_still fun number turned => absurd turned (quiet number)).retires
  | task number turned => exact (State.taskTurn_withdraws turned).2
  | @goesOn phase _ s next turned =>
    cases phase with
    | joining tasks deadline =>
      unfold Shutdown.turn at turned
      dsimp only at turned
      split at turned <;> cases turned
    | _ =>
      cases turned
      exact .of_same rfl
  | @ends phase _ s summary turned =>
    cases phase with
    | joining tasks deadline =>
      unfold Shutdown.turn at turned
      dsimp only at turned
      split at turned
      · cases turned
        exact .of_same rfl
      · cases turned
    | _ => cases turned

theorem isRetired_later (steps : Relation.ReflTransGen (Step policy timeout) c c')
    (retired : c.traffic.state.skeleton.isRetired entry = true) : c'.traffic.state.skeleton.isRetired entry = true := by
  induction steps with
  | refl => exact retired
  | tail _ step ih => exact step.retires.retired entry ih

end Closing

theorem Call.IsAside.grip {call : Call} (aside : call.IsAside) :
    call.grip.fresh = none ∧ call.grip.taken = none ∧ ∀ key entry, call.grip.hold ≠ .retires key entry := by
  cases call with
  | mark lease index highest phase =>
    simp only [Call.grip,Served.grip]
    cases lease.run with
    | none => exact ⟨rfl,rfl,fun _ _ same => by cases same⟩
    | some run => cases phase <;> exact ⟨rfl,rfl,fun _ _ same => by cases same⟩
  | report id found phase => cases phase <;> exact ⟨rfl,rfl,fun _ _ same => by cases same⟩
  | _ => exact aside.elim

/-- When the tasks are over that retire entries, all the entries are retired. -/
theorem State.Tends.retired (tends : s.Tends table first entries found)
    (done : ∀ task ∈ s.tasks, task.isRetirement = false) {p : Key × Nat} (listed : p ∈ table) :
    s.skeleton.isRetired p.2 = true := by
  by_contra working
  obtain ⟨i,at_entry⟩ := List.mem_iff_getElem?.mp (tends.listed p listed (Bool.eq_false_iff.mpr working))
  obtain ⟨task,here,working'⟩ := tends.tasks i p.2 at_entry
  have other := done task (List.mem_of_getElem? here)
  cases task with
  | retirement => cases other
  | watch | teardown => exact working'
  | _ => exact working working'.1

/-- When every task has come to its end, as many have torn down a run as have found one. -/
theorem State.Tends.count (tends : s.Tends table first entries found)
    (ended : ∀ number ∈ List.range' first entries.length, Shutdown.outcome? s number ≠ none) :
    (List.range' first entries.length).countP (Shutdown.outcome? s · == some true) = found.length := by
  have told : ∀ p ∈ entries.zipIdx first, (Shutdown.outcome? s p.2 == some true) = decide (p.1 ∈ found) := by
    rintro ⟨entry,number⟩ member
    obtain ⟨later,at_entry⟩ := List.mk_mem_zipIdx_iff_le_and_getElem?_sub.mp member
    obtain ⟨task,here,working⟩ := tends.tasks _ entry at_entry
    rw [Nat.add_sub_cancel' later] at here
    have inside : number ∈ List.range' first entries.length := by
      have := (List.getElem?_eq_some_iff.mp at_entry).1
      exact List.mem_range'_1.mpr ⟨later,by omega⟩
    have ended := ended number inside
    simp only [Shutdown.outcome?,here] at ended ⊢
    cases task with
    | watch | teardown => exact working.elim
    | retirement => exact absurd rfl ended
    | _ => 
      rw [← Bool.coe_iff_coe]
      simpa using working.2
  have both : (entries.filter (· ∈ found)).Perm found := by
    refine (List.perm_ext_iff_of_nodup (tends.distinct.filter _) tends.once).mpr fun entry => ?_
    simpa using fun member => tends.known member
  calc (List.range' first entries.length).countP (Shutdown.outcome? s · == some true)
      = (entries.zipIdx first).countP (fun p => Shutdown.outcome? s p.2 == some true) := by
        rw [← List.zipIdx_map_snd first entries,List.countP_map]
        rfl
    _ = (entries.zipIdx first).countP (fun p => decide (p.1 ∈ found)) := by
        refine List.countP_congr fun p member => ?_
        rw [told p member]
    _ = entries.countP (· ∈ found) := by
        conv_rhs => rw [← List.zipIdx_map_fst first entries,List.countP_map]
        rfl
    _ = found.length := by rw [List.countP_eq_length_filter,both.length_eq]

/-- No run is launched, and nothing becomes of the runs that there are. -/
structure State.LaunchesNone (s t : State) : Prop where
  launches : t.launches = s.launches
  runs : t.runs = s.runs

namespace Closing

/-- Once the shutdown, its tasks and the calls that may start runs are over, no entry is in the table and every run is
    destroyed. -/
theorem Holds.destroyed (holds : c.Holds table) {summary : Summary} (ended : c.stand = .inr summary)
    (asides : ∀ call ∈ c.traffic.calls, call.IsAside)
    (done : ∀ task ∈ c.traffic.state.tasks, task.isRetirement = false) :
    c.traffic.state.table = [] ∧ ∀ r ∈ c.traffic.state.runs, r.isDestroyed = true := by
  have stands := holds.stands
  rw [ended] at stands
  obtain ⟨empty,first,entries,tends⟩ := stands
  have sound := holds.sound
  have quiet : c.traffic.state.skeleton.isShuttingDown = false :=
    List.any_eq_false.mpr fun task member => by rw [done task member]; exact Bool.false_ne_true
  rw [State.retiring_of_quiet quiet,Multiset.add_zero] at sound
  have idle : ∀ g ∈ c.traffic.grips, g.fresh = none ∧ g.taken = none ∧ ∀ key entry, g.hold ≠ .retires key entry := by
    intro g member
    rcases Multiset.mem_add.mp member with going | out
    · obtain ⟨call,known,rfl⟩ := Multiset.mem_map.mp going
      exact (asides call known).grip
    · obtain ⟨grant,_,rfl⟩ := Multiset.mem_map.mp out
      exact ⟨rfl,rfl,fun _ _ same => by cases same⟩
  have unlisted : ∀ p, p ∉ table := by
    intro p listed
    have retired := tends.retired done listed
    obtain ⟨g,member,leaves⟩ := sound.leaving p.1 p.2
      (by rw [State.skeleton_recalled]; exact listed) (by rw [State.skeleton_recalled]; exact retired)
    exact (idle g member).2.2 _ _ leaves
  refine ⟨empty,fun r member => ?_⟩
  -- nobody has the run in his hands, and it is not bound, since what is bound is in the remembered table
  obtain ⟨run,here⟩ := List.mem_iff_getElem?.mp member
  have owned := sound.owned run
  have unmade : (c.traffic.grips.map Grip.fresh).count (some run) = 0 := by
    rw [Multiset.count_eq_zero]
    intro made
    obtain ⟨g,known,made⟩ := Multiset.mem_map.mp made
    cases (idle g known).1.symm.trans made
  have untaken : (c.traffic.grips.map Grip.taken).count (some run) = 0 := by
    rw [Multiset.count_eq_zero]
    intro taken
    obtain ⟨g,known,taken⟩ := Multiset.mem_map.mp taken
    cases (idle g known).2.1.symm.trans taken
  have unbound : (c.traffic.state.recalled table).skeleton.bindings.count (some run) = 0 := by
    rw [List.count_eq_zero]
    intro bound
    obtain ⟨entry,at_entry⟩ := List.mem_iff_getElem?.mp bound
    obtain ⟨key,_,listed⟩ := sound.listed.bound entry run (by rw [Skeleton.bound?,at_entry]; rfl)
    rw [State.skeleton_recalled] at listed
    exact unlisted _ listed
  rw [unmade,untaken,unbound,← State.isDestroyed_skeleton] at owned
  have gone : (c.traffic.state.recalled table).isDestroyed run = r.isDestroyed := by
    have here : (c.traffic.state.recalled table).runs[run]? = some r := here
    rw [State.isDestroyed,here]
  rw [gone] at owned
  cases destroyed : r.isDestroyed with
  | true => rfl
  | false =>
    rw [destroyed] at owned
    cases owned

/-- The binding of a lease, whose entry is retired, launches nothing, and it fails when it has come to the lock. -/
theorem Holds.bind_fails (holds : c.Holds table) {grant : Grant} {phase : Bind}
    (going : .bind grant phase ∈ c.traffic.calls) (pending : grant.lease.pending.isSome = true)
    (retired : c.traffic.state.skeleton.isRetired grant.lease.entry = true) :
    (phase.turn policy c.traffic.clock grant.lease c.traffic.state).Leads
      (fun s _ => c.traffic.state.LaunchesNone s ∧
        ∀ deadline calls ticket, phase ≠ .locking deadline calls ticket)
      (fun s result => c.traffic.state.LaunchesNone s ∧ result = .error (.segmentNotFound "init")) := by
  obtain ⟨demand,wants⟩ := Option.isSome_iff_exists.mp pending
  have fits := holds.sound.fits (Call.grip (.bind grant phase))
    (Multiset.mem_add.mpr (.inl (Multiset.mem_add.mpr (.inl (Multiset.mem_map_of_mem Call.grip going)))))
  have retired' : (c.traffic.state.recalled table).skeleton.isRetired grant.lease.entry = true := by
    rw [State.skeleton_recalled]
    exact retired
  unfold Bind.turn
  rw [wants]
  cases phase with
  | begin => exact ⟨⟨rfl,rfl⟩,fun _ _ _ same => by cases same⟩
  | approaching deadline => exact ⟨⟨rfl,rfl⟩,fun _ _ _ same => by cases same⟩
  | waiting deadline calls =>
    dsimp only
    split
    · trivial
    · exact ⟨⟨rfl,rfl⟩,fun _ _ _ same => by cases same⟩
  | locking deadline calls ticket =>
    dsimp only
    split
    · trivial
    · rename_i e locked
      have gone : e.isRetired = true := (State.isRetired_of_locked locked).symm.trans retired
      unfold Bind.decide
      rw [if_pos gone]
      exact ⟨⟨rfl,rfl⟩,rfl⟩
  | starting ticket first phase =>
    -- who starts a run is inside the entry, which is not retired then
    have entered : (Call.grip (.bind grant (.starting ticket first phase))).hold.entered? =
        some (grant.lease.entry,ticket) := by
      simp only [Call.grip,Bind.grip,wants,Bind.gripOf]
      cases phase <;> rfl
    cases (fits.entered grant.lease.entry ticket entered).symm.trans retired'

/-- As long as no deadline has passed, every task has come to its end when the shutdown has, and as many sessions are
    counted as destroyed as were found bound. -/
theorem Holds.summary (holds : c.Holds table) {tasks : List Nat} {deadline : Nat}
    (here : c.stand = .inl (.joining tasks deadline)) (inTime : c.traffic.clock.millis < deadline) :
    ((Shutdown.joining tasks deadline).turn c.traffic.clock timeout c.traffic.state).Leads (fun _ _ => False)
      (fun _ summary => summary.leaked = 0 ∧ summary.destroyed = c.found.length ∧ c.found.Nodup) := by
  have stands := holds.stands
  rw [here] at stands
  obtain ⟨_,first,entries,rfl,tends⟩ := stands
  unfold Shutdown.turn
  dsimp only
  split
  · rename_i done
    have none : (Shutdown.summary c.traffic.state (List.range' first entries.length)).leaked = 0 :=
      done.resolve_right (Nat.not_le_of_lt inTime)
    refine ⟨none,tends.count fun number member => ?_,tends.once⟩
    have told := List.countP_eq_zero.mp none number member
    exact fun missing => told (by rw [missing]; rfl)
  · trivial

/-- A shutdown, begun on a table with any history when nobody asks for sessions any more, destroys everything, in
    every order of its steps, those of its tasks and those of the other calls. Once it is over, with its tasks and
    the calls that may start runs, no entry is in the table and every run is destroyed. The binding of a lease
    launches nothing once the entry is retired, and fails when it has come to the lock. And when the shutdown has come
    to its end before its deadline, nothing is leaked, and as many sessions were destroyed as there were entries with a
    run when their tasks took their locks. -/
theorem shutdown_destroys_everything (reached : c.Reachable policy timeout) :
    (∀ summary, c.stand = .inr summary → (∀ call ∈ c.traffic.calls, call.IsAside) →
      (∀ task ∈ c.traffic.state.tasks, task.isRetirement = false) →
        c.traffic.state.table = [] ∧ ∀ r ∈ c.traffic.state.runs, r.isDestroyed = true) ∧
    (∀ later grant phase, Relation.ReflTransGen (Step policy timeout) c later →
      .bind grant phase ∈ later.traffic.calls → grant.lease.pending.isSome = true →
      c.traffic.state.skeleton.isRetired grant.lease.entry = true →
        (phase.turn policy later.traffic.clock grant.lease later.traffic.state).Leads
          (fun s _ => later.traffic.state.LaunchesNone s ∧
            ∀ deadline calls ticket, phase ≠ .locking deadline calls ticket)
          (fun s result => later.traffic.state.LaunchesNone s ∧ result = .error (.segmentNotFound "init"))) ∧
    ∀ tasks deadline, c.stand = .inl (.joining tasks deadline) → c.traffic.clock.millis < deadline →
      ((Shutdown.joining tasks deadline).turn c.traffic.clock timeout c.traffic.state).Leads (fun _ _ => False)
        (fun _ summary => summary.leaked = 0 ∧ summary.destroyed = c.found.length ∧ c.found.Nodup) := by
  obtain ⟨table,holds⟩ := holds_of_reachable reached
  refine ⟨fun summary ended asides done => holds.destroyed ended asides done,?_,fun tasks deadline => holds.summary⟩
  intro later grant phase steps going pending retired
  obtain ⟨w,before,asides,earlier⟩ := reached
  obtain ⟨table',holds'⟩ := holds_of_reachable ⟨w,before,asides,earlier.trans steps⟩
  exact holds'.bind_fails going pending (isRetired_later steps retired)

/-- A request of another player for the header of the film. -/
def otherHeader : Demand := { Traffic.headerRequest with key := { Traffic.headerRequest.key with player := ⟨"other"⟩ } }

/-- The lease of the other player, who waits for a run. -/
def otherGrant : Grant := ⟨otherHeader,⟨1,none,some otherHeader⟩⟩

/-- One player watches the film, and another one waits for a run when the table is shut down: the binding of the one
    fails, and the run of the other is the one that is destroyed. -/
theorem shutdown_beside_a_pending_lease :
    ∃ waiting joining ended : Closing,
      .bind otherGrant (.locking 0 1 2) ∈ waiting.traffic.calls ∧ waiting.traffic.state.skeleton.isRetired 1 = true ∧
      (Bind.turn default waiting.traffic.clock otherGrant.lease (.locking 0 1 2) waiting.traffic.state).Leads
        (fun s _ => waiting.traffic.state.LaunchesNone s ∧
          ∀ deadline calls ticket, Bind.locking 0 1 2 ≠ .locking deadline calls ticket)
        (fun s result => waiting.traffic.state.LaunchesNone s ∧ result = .error (.segmentNotFound "init")) ∧
      joining.stand = .inl (.joining [1,2] 15000) ∧ joining.found = [0] ∧
      ((Shutdown.joining [1,2] 15000).turn joining.traffic.clock 15000 joining.traffic.state).Leads (fun _ _ => False)
        (fun _ summary => summary.leaked = 0 ∧ summary.destroyed = joining.found.length ∧ joining.found.Nodup) ∧
      ended.stand = .inr ⟨1,0⟩ ∧ ended.traffic.state.runs.length = 1 ∧
      ended.traffic.state.table = [] ∧ ∀ r ∈ ended.traffic.state.runs, r.isDestroyed = true := by
  have asked : Traffic.Reachable default .free _ := .tail .refl (.ask Traffic.firstRequest trivial)
  have found := asked.tail (.goesOn _ 0 rfl rfl)
  have entered := found.tail (.goesOn _ 0 rfl rfl)
  have inside := entered.tail (.goesOn _ 0 rfl rfl)
  have unbound := inside.tail (.goesOn _ 0 rfl rfl)
  have rooted := unbound.tail (.goesOn _ 0 rfl rfl)
  have made := rooted.tail (.goesOn _ 0 rfl rfl)
  have served := made.tail (.ends _ 0 rfl rfl)
  have again := served.tail (.ask otherHeader trivial)
  have known := again.tail (.goesOn _ 0 rfl rfl)
  have waits := known.tail (.goesOn _ 0 rfl rfl)
  have leased := waits.tail (.ends _ 0 rfl rfl)
  have begun := leased.tail (.bind otherGrant {⟨Traffic.firstRequest,⟨0,some 0,none⟩⟩} rfl)
  have pending := begun.tail (.goesOn (.bind otherGrant .begin) 0 rfl rfl)
  have quiet := Reachable.begins 15000 pending (Multiset.forall_mem_cons.mpr ⟨id,fun _ none => absurd none (Multiset.notMem_zero _)⟩)
  have listed := quiet.tail (.goesOn .begin rfl rfl)
  have cleared := listed.tail (.goesOn (.clearing [0,1]) rfl rfl)
  have started := cleared.tail (.goesOn (.forgetting [0,1]) rfl rfl)
  have queued := started.tail (.task 1 rfl)
  have queued' := queued.tail (.task 2 rfl)
  have retired := queued'.tail (.task 2 rfl)
  have waiting := retired.tail (.other (.goesOn (.bind otherGrant (.approaching 0)) 0 rfl rfl) (State.Spawns.quiet (.of_same rfl)))
  have failed := waiting.tail (.other (.ends (.bind otherGrant (.locking 0 1 2)) 0 rfl rfl) (State.Spawns.quiet (.of_same rfl)))
  have taken := failed.tail (.task 1 rfl)
  have stopping := taken.tail (.task 1 rfl)
  have stopped := stopping.tail (.task 1 rfl)
  have joining := stopped.tail (.task 1 rfl)
  have ended := joining.tail (.ends (.joining [1,2] 15000) rfl rfl)
  have going := Multiset.mem_cons_self (Call.bind otherGrant (.locking 0 1 2)) 0
  have fails := (shutdown_destroys_everything waiting).2.1 _ otherGrant _ .refl going rfl rfl
  have counts := (shutdown_destroys_everything joining).2.2 [1,2] 15000 rfl (by decide)
  have destroyed := (shutdown_destroys_everything ended).1 ⟨1,0⟩ rfl
    (fun _ none => absurd none (Multiset.notMem_zero _)) (by decide)
  exact ⟨_,_,_,going,rfl,fails,rfl,rfl,counts,rfl,rfl,destroyed⟩

end Closing

end Playout.Playback
