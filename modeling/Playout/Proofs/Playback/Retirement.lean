import Playout.Playback.Shutdown
import Playout.Proofs.Playback.IdleCleanup

/-!
Entries that tasks retire. A shutdown empties the table while runs are still bound to its
entries, so the table is remembered: what is shared out is seen as if the table still had
every entry that no task has taken over (`State.recalled`). The moves of calls go on there
as before (`Move.recalled`), and a task that comes to the lock of its entry takes the entry
and its run out of everybody's hands (`Sound.retirement`).
-/
namespace Playout.Playback

variable {policy : Policy} {clock : Clock} {s t u : State} {k : Skeleton} {g h : Grip} {rest : Multiset Grip}
  {makers news : List Key} {table : List (Key × Nat)}

/-! ### A table that is remembered -/

namespace State

/-- The state with another table, and without the tasks that retire entries. -/
def recalled (s : State) (table : List (Key × Nat)) : State :=
  { s with table := table, tasks := s.tasks.filter fun task => !task.isRetirement }

theorem skeleton_recalled (s : State) (table : List (Key × Nat)) :
    (s.recalled table).skeleton = { s.skeleton with table := table, isShuttingDown := false } := by
  have quiet : (s.tasks.filter fun task => !task.isRetirement).any Task.isRetirement = false := by simp
  simp only [skeleton,recalled,quiet]

theorem recalled_spawn {task : Task} (other : task.isRetirement = false) (s : State) (table : List (Key × Nat)) :
    (s.spawn task).recalled table = (s.recalled table).spawn task := by
  simp [recalled,spawn,other]

theorem recalled_destroyDetached (s : State) (run : Nat) (table : List (Key × Nat)) :
    (s.destroyDetached run).recalled table = (s.recalled table).destroyDetached run := by
  have same : (s.recalled table).isDestroyed run = s.isDestroyed run := rfl
  rw [destroyDetached,destroyDetached,same]
  split
  · rfl
  · exact recalled_spawn rfl (s.destroy run) table

theorem recalled_replace (s : State) (started : Started) (table : List (Key × Nat)) :
    (s.replace started).recalled table = (s.recalled table).replace started := by
  rw [replace,replace]
  split
  · exact s.recalled_destroyDetached _ table
  · rfl

theorem recalled_launch {run : Nat} (launched : s.launch run = .ok t) (table : List (Key × Nat)) :
    (s.recalled table).launch run = .ok (t.recalled table) := by
  unfold launch at launched ⊢
  split at launched
  · cases launched
  · rename_i works
    have works : (s.recalled table).script.failure = none := works
    cases launched
    rw [works]
    simp [recalled,spawn,Task.isRetirement]

theorem destroyed_eq (s : State) (run : Nat) :
    (s.destroyed run).1 = if s.isDestroyed run then s else s.destroy run := by
  unfold destroyed
  split <;> rfl

theorem recalled_unlist (s : State) (key : Key) (entry : Nat) (run : Option Nat) (table : List (Key × Nat)) :
    (s.unlist key entry run).recalled (table.filter (· ≠ (key,entry))) = (s.recalled table).unlist key entry run := by
  cases run with
  | none => rfl
  | some run =>
    let left : State := { s with table := s.table.filter (· ≠ (key,entry)), owners := s.owners.filter (·.1 != run) }
    let recalled' := left.recalled (table.filter (· ≠ (key,entry)))
    have before : s.unlist key entry (some run) = if s.isDestroyed run then left else left.destroy run :=
      left.destroyed_eq run
    have after : (s.recalled table).unlist key entry (some run) =
        if s.isDestroyed run then recalled' else recalled'.destroy run := recalled'.destroyed_eq run
    rw [before,after]
    split <;> rfl

theorem table_replace (s : State) (started : Started) : (s.replace started).table = s.table := by
  unfold replace
  split
  · unfold destroyDetached
    split <;> rfl
  · rfl

theorem table_unlist (s : State) (key : Key) (entry : Nat) (run : Option Nat) :
    (s.unlist key entry run).table = s.table.filter (· ≠ (key,entry)) := by
  cases run with
  | none => rfl
  | some run =>
    simp only [unlist,destroyed_eq]
    split <;> rfl

end State

/-- A call that looks up no key makes its moves also as if the table were another one. -/
theorem Move.recalled (move : Move policy clock s g t h news) (given : g.entry = none → g.demand = none)
    (sub : s.table ⊆ table) : ∃ keeps : Key × Nat → Bool, t.table = s.table.filter keeps ∧
      Move policy clock (s.recalled table) g (t.recalled (table.filter keeps)) h news := by
  have stays (same : t.table = s.table) (move : Move policy clock (s.recalled table) g (t.recalled table) h news) :
      ∃ keeps : Key × Nat → Bool, t.table = s.table.filter keeps ∧
        Move policy clock (s.recalled table) g (t.recalled (table.filter keeps)) h news := by
    refine ⟨fun _ => true,?_,?_⟩
    · rw [List.filter_true,same]
    · rw [List.filter_true]
      exact move
  have still {v : State} (same : v.skeleton = s.skeleton) : (v.recalled table).skeleton = (s.recalled table).skeleton := by
    rw [State.skeleton_recalled,State.skeleton_recalled,same]
  cases move with
  | rests same => exact stays (congrArg Skeleton.table same) (.rests (still same))
  | enters demand => cases given rfl
  | @asks v _ entry idle known same =>
    exact stays (congrArg Skeleton.table same) (.asks (t := v.recalled table) idle known (still same))
  | takes waits locked listed => exact stays rfl (.takes waits locked listed)
  | leaves holds freed =>
    refine stays (congrArg Skeleton.table freed) (.leaves holds ?_)
    rw [State.skeleton_recalled,State.skeleton_recalled,freed]
    rfl
  | unbinds inside empty => exact stays rfl (.unbinds inside empty)
  | makes demand first emptied wants unmade => exact stays rfl (.makes demand first emptied wants unmade)
  | @binds v _ entry ticket run demand first emptied wants given made launched =>
    refine stays ?_ ?_
    · exact (State.table_replace ..).trans (congrArg Skeleton.table (s.skeleton_launch launched))
    · rw [State.recalled_replace]
      exact .binds demand first emptied wants given made (State.recalled_launch launched table)
  | refuses made => exact stays rfl (.refuses made)
  | @givesUp v _ entry ticket why emptied unmade same =>
    refine stays ?_ ?_
    · exact (State.table_replace ..).trans (congrArg Skeleton.table same)
    · have moved : Move policy clock (s.recalled table) g
          ((((v.recalled table).unlock entry ticket).replace ⟨g.taken,.error why⟩).letGo clock entry) _ [] :=
        .givesUp why emptied unmade (still same)
      have same : ((((v.unlock entry ticket).replace ⟨g.taken,.error why⟩).letGo clock entry).recalled table) =
          (((v.unlock entry ticket).recalled table).replace ⟨g.taken,.error why⟩).letGo clock entry := by
        rw [← State.recalled_replace]
        rfl
      rw [same]
      exact moved
  | lists visits listed => exact stays rfl (.lists visits (List.Subset.trans listed sub))
  | retires idle empty visited found unlocked unheld => exact stays rfl (.retires idle empty visited found unlocked unheld)
  | @unlists _ key entry retired =>
    refine ⟨(· ≠ (key,entry)),s.table_unlist key entry g.taken,?_⟩
    rw [State.recalled_unlist]
    exact .unlists retired

/-! ### Tasks that are added -/

/-- The tasks are what they were, with others that retire no entries. -/
def State.Spawns (s t : State) : Prop := ∃ more, t.tasks = s.tasks ++ more ∧ ∀ task ∈ more, task.isRetirement = false

namespace State.Spawns

theorem of_same (same : t.tasks = s.tasks) : s.Spawns t := ⟨[],by rw [same,List.append_nil],fun _ none => by cases none⟩

theorem refl (s : State) : s.Spawns s := of_same rfl

theorem trans (first : s.Spawns t) (second : t.Spawns u) : s.Spawns u := by
  obtain ⟨more,tasks,others⟩ := first
  obtain ⟨more',tasks',others'⟩ := second
  refine ⟨more ++ more',by rw [tasks',tasks,List.append_assoc],fun task member => ?_⟩
  exact (List.mem_append.mp member).elim (others task) (others' task)

theorem spawn {task : Task} (other : task.isRetirement = false) (s : State) : s.Spawns (s.spawn task) := by
  refine ⟨[task],rfl,fun task' member => ?_⟩
  rw [List.mem_singleton.mp member]
  exact other

theorem destroyed (s : State) (run : Nat) : s.Spawns (s.destroyed run).1 := by
  rw [destroyed_eq]
  split <;> exact of_same rfl

theorem replace (s : State) (started : Started) : s.Spawns (s.replace started) := by
  unfold State.replace
  split
  · unfold destroyDetached
    split
    · exact refl s
    · exact (of_same rfl : s.Spawns (s.destroy _)).trans (spawn rfl _)
  · exact refl s

theorem launch {run : Nat} (launched : s.launch run = .ok t) : s.Spawns t := by
  unfold State.launch at launched
  split at launched
  · cases launched
  · cases launched
    exact ⟨_,rfl,fun task member => by rw [List.mem_singleton.mp member]; rfl⟩

theorem signalRun (s : State) (run : Nat) (pause : Bool) (source target : Stage) :
    s.Spawns (s.signalRun run pause source target).1 := by
  unfold State.signalRun
  split
  · exact refl s
  · split
    · split
      · rename_i sent
        simp only [signal?,Option.bind_eq_bind,Option.bind_eq_some_iff] at sent
        obtain ⟨_,_,_,_,_,_,same⟩ := sent
        cases same
        exact of_same rfl
      · exact refl s
    · exact refl s

/-- A ticket is given back, and the run that a start has unbound is torn down. -/
theorem settle (s : State) (entry ticket : Nat) (started : Started) :
    s.Spawns ((s.unlock entry ticket).replace started) :=
  (of_same rfl : s.Spawns (s.unlock entry ticket)).trans (replace _ started)

end State.Spawns

theorem Teardown.turn_tasks (s : State) (run : Nat) (phase : Teardown) :
    (phase.turn clock run s).Leads (fun t _ => t.tasks = s.tasks) (fun t _ => t.tasks = s.tasks) := by
  cases phase with
  | start =>
    unfold turn
    dsimp only
    split <;> rfl
  | terminating process wake =>
    unfold turn
    dsimp only
    split
    · trivial
    · rfl
  | clearing => rfl

theorem Start.turn_spawns (s : State) (order : Order) (phase : Start) :
    (phase.turn policy order s).Leads (fun t _ => s.Spawns t) (fun t _ => s.Spawns t) := by
  cases phase with
  | begin => exact .of_same rfl
  | makeRoot replaced =>
    unfold turn
    dsimp only
    split <;> exact .refl s
  | makeDirectory replaced =>
    unfold turn
    dsimp only
    split
    · exact .refl s
    · exact .of_same rfl
  | launch replaced run =>
    unfold turn
    dsimp only
    split
    · rename_i t launched
      exact (State.Spawns.launch launched).trans (.of_same rfl)
    · exact .of_same rfl
  | discard replaced run why => exact .of_same rfl

theorem Acquire.turn_spawns (s : State) (demand : Demand) (phase : Acquire) :
    (phase.turn policy clock demand s).Leads (fun t _ => s.Spawns t) (fun t _ => s.Spawns t) := by
  cases phase with
  | lookup =>
    have entered : s.Spawns (enter clock demand.key s).1 := by
      unfold enter
      split <;> exact .of_same rfl
    exact entered
  | approaching entry => exact .of_same rfl
  | locking entry ticket =>
    unfold turn
    dsimp only
    split
    · trivial
    · unfold decide
      split
      · exact .of_same rfl
      · split
        · exact .of_same rfl
        · exact .of_same rfl
        · split
          · split <;> exact .of_same rfl
          · exact .refl s
        · exact .refl s
  | retrying => exact .refl s
  | listing entry ticket run => exact .refl s
  | listed entry ticket run holds =>
    unfold turn
    dsimp only
    split <;> exact .of_same rfl
  | starting entry ticket phase =>
    refine (phase.turn_spawns s _).within (fun _ _ spawns => spawns) ?_
    rintro t ⟨replaced,outcome⟩ spawns
    have settled := spawns.trans (.settle t entry ticket ⟨replaced,outcome⟩)
    cases outcome with
    | ok run => exact settled
    | error why => exact settled.trans (.of_same rfl)

theorem Bind.turn_spawns (s : State) (lease : Lease) (phase : Bind) :
    (phase.turn policy clock lease s).Leads (fun t _ => s.Spawns t) (fun t _ => s.Spawns t) := by
  unfold turn
  cases lease.pending with
  | none => exact .refl s
  | some demand =>
    cases phase with
    | begin => exact .refl s
    | approaching deadline => exact .of_same rfl
    | locking deadline calls ticket =>
      dsimp only
      split
      · trivial
      · unfold decide
        dsimp only
        split
        · exact .of_same rfl
        · split
          · exact .of_same rfl
          · split <;> exact .of_same rfl
    | waiting deadline calls =>
      dsimp only
      split
      · trivial
      · exact .refl s
    | starting ticket first phase =>
      refine (phase.turn_spawns s _).within (fun _ _ spawns => spawns) ?_
      rintro t ⟨replaced,outcome⟩ spawns
      have settled := spawns.trans (.settle t lease.entry ticket ⟨replaced,outcome⟩)
      cases outcome with
      | ok run => exact settled
      | error why => exact settled.trans (.of_same rfl)

theorem Served.turn_spawns (s : State) (lease : Lease) (index : Nat) (highest : Option Nat) (phase : Served) :
    (phase.turn policy lease index highest s).Leads (fun t _ => s.Spawns t) (fun t _ => s.Spawns t) := by
  unfold turn
  cases lease.run with
  | none => exact .refl s
  | some run =>
    cases phase with
    | begin => exact .of_same rfl
    | locking ticket =>
      dsimp only
      split
      · trivial
      · split <;> exact .of_same rfl
    | noted lastServed =>
      dsimp only
      split
      · exact .signalRun s run false .throttled .running
      · exact .refl s

theorem Feedback.turn_spawns (s : State) (id : RunId) (report : Encoder.Report) (phase : Feedback) :
    (phase.turn policy id report s).Leads (fun t _ => s.Spawns t) (fun t _ => s.Spawns t) := by
  cases phase with
  | lookup =>
    unfold turn
    dsimp only
    split <;> exact .of_same rfl
  | locking run entry ticket =>
    unfold turn
    dsimp only
    split
    · trivial
    · split <;> exact .of_same rfl
  | recording run lastServed =>
    unfold turn
    dsimp only
    split <;> exact .of_same rfl
  | listing run lastServed => exact .refl s
  | listed run lastServed available =>
    unfold turn
    dsimp only
    split
    · split
      · exact .signalRun s run true .running .throttled
      · exact .refl s
    · exact .refl s

theorem Cleanup.turn_spawns (s : State) (phase : Cleanup) :
    (phase.turn policy clock s).Leads (fun t _ => s.Spawns t) (fun t _ => s.Spawns t) := by
  cases phase with
  | collect => exact .refl s
  | visiting now waiting removed =>
    cases waiting with
    | nil => exact .refl s
    | cons next rest =>
      unfold turn
      dsimp only
      split
      · exact .refl s
      · split <;> exact .of_same rfl
  | unlisting now key entry run rest removed =>
    unfold turn
    dsimp only
    cases run with
    | none => exact .of_same rfl
    | some run =>
      let left : State := { s with table := s.table.filter (· ≠ (key,entry)), owners := s.owners.filter (·.1 != run) }
      have spawns : s.Spawns (left.destroyed run).1 := (State.Spawns.of_same rfl : s.Spawns left).trans (.destroyed left run)
      dsimp only
      split
      · rename_i t phase destroyed
        rw [destroyed] at spawns
        exact spawns
      · rename_i t destroyed
        rw [destroyed] at spawns
        exact spawns
  | tearing now run phase rest removed =>
    exact (phase.turn_tasks s run).within (fun _ _ same => .of_same same) (fun _ _ same => .of_same same)

/-- A call adds no task that retires an entry, and lets the tasks go on. -/
theorem Call.turn_spawns (s : State) (call : Call) :
    (call.turn policy clock s).Leads (fun t _ => s.Spawns t) (fun t _ => s.Spawns t) := by
  cases call with
  | acquire demand phase =>
    exact Turn.Leads.within (phase.turn_spawns s demand) (fun _ _ spawns => spawns)
      (fun _ r spawns => by cases r <;> exact spawns)
  | bind grant phase =>
    exact Turn.Leads.within (phase.turn_spawns s grant.lease) (fun _ _ spawns => spawns)
      (fun _ r spawns => by cases r <;> exact spawns)
  | mark lease index highest phase =>
    exact Turn.Leads.within (phase.turn_spawns s lease index highest) (fun _ _ spawns => spawns) (fun _ _ spawns => spawns)
  | report id found phase =>
    exact Turn.Leads.within (phase.turn_spawns s id found) (fun _ _ spawns => spawns) (fun _ _ spawns => spawns)
  | cleanUp phase =>
    exact Turn.Leads.within (phase.turn_spawns s) (fun _ _ spawns => spawns) (fun _ _ spawns => spawns)

/-! ### Entries that are taken over -/

namespace Skeleton

/-- The skeleton where an entry is retired and has left the table at once. -/
def close (k : Skeleton) (entry : Nat) : Skeleton :=
  { k with retirements := k.retirements.set entry true, table := k.table.filter (·.2 ≠ entry) }

theorem isRetired_close {entry : Nat} (inside : entry < k.retirements.length) (other : Nat) :
    (k.close entry).isRetired other = (entry == other || k.isRetired other) := isRetired_retire inside other

/-- To retire an entry again changes nothing. -/
theorem retire_of_isRetired {entry : Nat} (gone : k.isRetired entry = true) (empty : k.bound? entry = none) :
    k.retire entry = k := by
  have retirements : k.retirements.set entry true = k.retirements := by
    by_cases inside : entry < k.retirements.length
    · rw [isRetired,List.getElem?_eq_getElem inside] at gone
      have same : k.retirements[entry] = true := gone
      rw [← same,List.set_getElem_self]
    · exact List.set_eq_of_length_le (Nat.le_of_not_lt inside)
  have bindings : k.bindings.set entry none = k.bindings := by
    by_cases inside : entry < k.bindings.length
    · rw [bound?,List.getElem?_eq_getElem inside] at empty
      have same : k.bindings[entry] = none := empty
      rw [← same,List.set_getElem_self]
    · exact List.set_eq_of_length_le (Nat.le_of_not_lt inside)
  simp only [retire,bind,retirements,bindings]

end Skeleton

/-- A call that is not inside an entry fits when the entry is retired and leaves the table. -/
theorem Fits.close (fits : Fits k makers g) {entry : Nat} (inside : entry < k.retirements.length)
    (elsewhere : ∀ ticket, g.hold.entered? ≠ some (entry,ticket)) : Fits (k.close entry) makers g where
  given := fits.given
  known d other wants given := by
    rw [Skeleton.isRetired_close inside]
    rcases fits.known d other wants given with found | gone
    · by_cases same : other = entry
      · exact .inr (by rw [same,beq_self_eq_true,Bool.true_or])
      · exact .inl (List.mem_filter.mpr ⟨found,decide_eq_true same⟩)
    · exact .inr (by rw [gone,Bool.or_true])
  entered := (fits.retire inside elsewhere).entered
  emptied := fits.emptied
  retires := (fits.retire inside elsewhere).retires
  visits p member :=
    ⟨(fits.visits p member).1,fun key found => (fits.visits p member).2 key (List.mem_of_mem_filter found)⟩
  fresh := fits.fresh

namespace Sound

variable {entry ticket : Nat}

/-- Who is inside an entry that is empty retires it, and takes it out of the table. -/
theorem close (sound : Sound k makers (g ::ₘ rest)) (emptied : g.hold = .emptied entry ticket)
    (given : g.entry = some entry) : Sound (k.close entry) makers ({ g with hold := .waits entry ticket } ::ₘ rest) := by
  have listed := sound.listed
  have entered : g.hold.entered? = some (entry,ticket) := by rw [emptied]; rfl
  have empty : k.bound? entry = none := sound.head.emptied entry ticket emptied
  have inside : entry < k.retirements.length := listed.retirements ▸ sound.head.given entry given
  constructor
  · rw [Multiset.map_cons]
    exact sound.queue.stay (by rw [emptied]; rfl) (fun _ _ entered => by cases entered)
  · exact { listed with
      retirements := List.length_set.trans listed.retirements
      keys := (List.filter_sublist.map _).nodup listed.keys
      table := fun p member => listed.table p (List.mem_of_mem_filter member)
      names := fun key key' other found found' =>
        listed.names key key' other (List.mem_of_mem_filter found) (List.mem_of_mem_filter found')
      retired := by
        intro other gone
        rw [Skeleton.isRetired_close inside] at gone
        by_cases same : entry = other
        · exact same ▸ empty
        · exact listed.retired other (by simpa [same] using gone)
      bound := by
        intro other run bound
        obtain ⟨key,made,found⟩ := listed.bound other run bound
        have differs : other ≠ entry := by
          rintro rfl
          cases empty.symm.trans bound
        exact ⟨key,made,List.mem_filter.mpr ⟨found,decide_eq_true differs⟩⟩ }
  · refine Multiset.forall_mem_cons.mpr ⟨?_,fun g' member => ?_⟩
    · exact (sound.head.outside (h := .waits entry ticket) rfl fun _ _ => by simp).close inside fun _ entered => by
        cases entered
    · exact (sound.others g' member).close inside fun _ =>
        sound.queue.alone entered (Multiset.mem_map_of_mem _ member)
  · exact sound.owned.keep rfl rfl rfl rfl
  · intro key other found gone
    obtain ⟨found,differs⟩ := List.mem_filter.mp found
    have differs : entry ≠ other := Ne.symm (of_decide_eq_true differs)
    rw [Skeleton.isRetired_close inside] at gone
    exact sound.leaving.keep (fun _ _ leaves => by rw [emptied] at leaves; cases leaves) key other found
      (by simpa [differs] using gone)

/-- Who comes to the lock of an entry retires it, takes it out of the table unless it had been retired before, and
    destroys the run that was bound. -/
theorem vacate (sound : Sound k makers ({ entry := some entry, hold := .waits entry ticket } ::ₘ rest))
    (head : (ticketsAt k.locks entry).head? = some ticket) :
    ∃ keeps : Key × Nat → Bool, Sound
      { ((k.retire entry).onLock entry (·.leave ticket)).discard (k.bound? entry) with
        table := k.table.filter keeps } makers rest := by
  cases retired : k.isRetired entry with
  | true =>
    -- a round of cleaning up was first, and takes the entry out of the table itself
    have empty := sound.listed.retired entry retired
    refine ⟨fun _ => true,?_⟩
    rw [List.filter_true,Skeleton.retire_of_isRetired retired empty,empty]
    exact (sound.leave rfl).part ⟨rfl,rfl,rfl⟩
  | false =>
    refine ⟨(·.2 ≠ entry),?_⟩
    have closed := ((sound.take rfl head retired).unbind rfl rfl).close rfl rfl
    have left := (closed.leave rfl).discard_taken.part ⟨rfl,rfl,rfl⟩
    cases bound : k.bound? entry with
    | none =>
      rw [bound] at left
      exact left
    | some run =>
      rw [bound] at left
      exact left

end Sound

/-! ### Retired entries stay retired -/

/-- Entries may come, and may be retired, but none comes back that was. -/
structure Skeleton.Retires (k k' : Skeleton) : Prop where
  length : k.retirements.length ≤ k'.retirements.length
  retired : ∀ entry, k.isRetired entry = true → k'.isRetired entry = true

namespace Skeleton.Retires

theorem of_same {k' : Skeleton} (same : k'.retirements = k.retirements) : k.Retires k' where
  length := Nat.le_of_eq (by rw [same])
  retired entry gone := by rwa [isRetired,same]

theorem trans {k' k'' : Skeleton} (first : k.Retires k') (second : k'.Retires k'') : k.Retires k'' where
  length := first.length.trans second.length
  retired entry gone := second.retired entry (first.retired entry gone)

theorem enlist (k : Skeleton) (key : Key) : k.Retires (k.enlist key) where
  length := by simp [Skeleton.enlist]
  retired entry gone := by rwa [isRetired_enlist]

theorem retire (k : Skeleton) (entry : Nat) : k.Retires (k.retire entry) where
  length := Nat.le_of_eq List.length_set.symm
  retired other gone := by
    rw [isRetired,Skeleton.retire,List.getElem?_set]
    split
    · split
      · rfl
      · rename_i same outside
        rw [isRetired,← same,List.getElem?_eq_none (Nat.le_of_not_lt outside)] at gone
        cases gone
    · exact gone

end Skeleton.Retires

theorem Move.keeps_retired (move : Move policy clock s g t h news) : s.skeleton.Retires t.skeleton := by
  rcases move.listing with same | ⟨key,new⟩ | ⟨entry,_,gone⟩ | ⟨key,entry,_,left⟩
  · exact .of_same same.retirements
  · exact (Skeleton.Retires.enlist s.skeleton key).trans (.of_same new.retirements)
  · exact (Skeleton.Retires.retire s.skeleton entry).trans (.of_same gone.retirements)
  · exact .of_same left.retirements

/-! ### Turns of tasks -/

namespace State

/-- The state where an entry is retired by who holds its lock, and those that wait for a run are called. -/
def vacate (s : State) (entry ticket : Nat) : State :=
  s.onEntry entry fun e =>
    { e with isRetired := true, run := none, calls := e.calls + 1, lock := e.lock.leave ticket }

theorem skeleton_vacate (s : State) (entry ticket : Nat) :
    (s.vacate entry ticket).skeleton = (s.skeleton.retire entry).onLock entry (·.leave ticket) := by
  let gone (e : Entry) : Entry :=
    { e with isRetired := true, run := none, calls := e.calls + 1, lock := e.lock.leave ticket }
  have lock : (s.entries.modify entry gone).map (·.lock) = (s.entries.map (·.lock)).modify entry (·.leave ticket) :=
    map_modify_eq (p := fun e : Entry => e.lock) (f := gone) (fun _ => rfl) _ _
  have run : (s.entries.modify entry gone).map (·.run) = (s.entries.map (·.run)).set entry none :=
    map_modify_set (p := fun e : Entry => e.run) (f := gone) (fun _ => rfl) _ _
  have retired : (s.entries.modify entry gone).map (·.isRetired) = (s.entries.map (·.isRetired)).set entry true :=
    map_modify_set (p := fun e : Entry => e.isRetired) (f := gone) (fun _ => rfl) _ _
  simp only [skeleton,vacate,onEntry,Skeleton.retire,Skeleton.bind,Skeleton.onLock]
  rw [lock,run,retired]

end State

/-- What a task that is to retire an entry has in its hands. -/
def Task.grips : Task → List Grip
  | retirement entry .start => [{ entry := some entry }]
  | retirement entry (.locking ticket) => [{ entry := some entry, hold := .waits entry ticket }]
  | retirement _ (.tearing ..) | watch .. | teardown .. | .over _ => []

theorem Task.grips_of_other {task : Task} (other : task.isRetirement = false) : task.grips = [] := by
  cases task with
  | retirement entry phase => cases other
  | _ => rfl

/-- What the tasks that are to retire entries have in their hands. -/
def State.retiring (s : State) : Multiset Grip := s.tasks.flatMap Task.grips

/-- What is shared out stays so when a task has its turn, with the entry that the task takes over out of the table. -/
theorem Retirement.turn_sound (entry : Nat) (phase : Retirement)
    (sound : Sound (s.recalled table).skeleton makers (↑(Task.grips (.retirement entry phase)) + rest)) :
    (phase.turn clock entry s).Leads
      (fun t next => ∃ keeps : Key × Nat → Bool,
        Sound (t.recalled (table.filter keeps)).skeleton makers (↑(Task.grips (.retirement entry next)) + rest))
      (fun t _ => ∃ keeps : Key × Nat → Bool, Sound (t.recalled (table.filter keeps)).skeleton makers rest) := by
  cases phase with
  | start =>
    refine ⟨fun _ => true,?_⟩
    rw [Task.grips,Multiset.coe_singleton,Multiset.singleton_add] at sound
    have asked := sound.ask_state rfl (sound.head.given entry rfl)
    rw [← Multiset.singleton_add,← Multiset.coe_singleton] at asked
    rw [List.filter_true]
    exact asked
  | locking ticket =>
    unfold turn
    dsimp only
    split
    · trivial
    · rename_i e locked
      have bound : (s.recalled table).skeleton.bound? entry = e.run := by
        rw [State.locked?,Option.filter_eq_some_iff] at locked
        rw [State.bound?_skeleton,State.recalled,locked.1]
        rfl
      rw [Task.grips,Multiset.coe_singleton,Multiset.singleton_add] at sound
      obtain ⟨keeps,sound⟩ := sound.vacate ((s.recalled table).head_of_locked locked)
      rw [bound] at sound
      have left {u : State} (same : u.skeleton = (s.vacate entry ticket).skeleton.discard e.run) :
          Sound (u.recalled (table.filter keeps)).skeleton makers rest := by
        rw [State.skeleton_recalled,same,State.skeleton_vacate]
        rw [State.skeleton_recalled] at sound
        cases run : e.run with
        | none =>
          rw [run] at sound
          exact sound
        | some run' =>
          rw [run] at sound
          exact sound
      split
      · rename_i unbound
        exact ⟨keeps,left (by rw [unbound]; rfl)⟩
      · rename_i run has
        have gone := (s.vacate entry ticket).skeleton_destroyed run
        split
        · rename_i u phase destroyed
          refine ⟨keeps,?_⟩
          rw [Task.grips,Multiset.coe_nil,Multiset.zero_add]
          exact left (by rw [has,← gone,State.vacate,destroyed])
        · rename_i u destroyed
          exact ⟨keeps,left (by rw [has,← gone,State.vacate,destroyed])⟩
  | tearing run phase =>
    have still {u : State} (same : u.skeleton = s.skeleton) :
        ∃ keeps : Key × Nat → Bool, Sound (u.recalled (table.filter keeps)).skeleton makers rest := by
      refine ⟨fun _ => true,?_⟩
      rw [Task.grips,Multiset.coe_nil,Multiset.zero_add] at sound
      rw [List.filter_true,State.skeleton_recalled,same,← State.skeleton_recalled]
      exact sound
    refine (s.teardown_keeps_skeleton clock run phase).within (fun t next same => ?_) fun t _ same => still same
    rw [Task.grips,Multiset.coe_nil,Multiset.zero_add]
    exact still same

theorem Task.turn_sound (task : Task) (sound : Sound (s.recalled table).skeleton makers (↑task.grips + rest)) :
    (task.turn clock s).Leads
      (fun t next => ∃ keeps : Key × Nat → Bool,
        Sound (t.recalled (table.filter keeps)).skeleton makers (↑next.grips + rest))
      (fun t destroyed => ∃ keeps : Key × Nat → Bool,
        Sound (t.recalled (table.filter keeps)).skeleton makers (↑(Task.grips (.over destroyed)) + rest)) := by
  cases retires : task.isRetirement with
  | true =>
    cases task with
    | retirement entry phase =>
      refine Turn.Leads.within (phase.turn_sound entry sound) (fun _ _ kept => kept) fun t _ kept => ?_
      simpa only [Turn.Leads,Task.grips,Multiset.coe_nil,Multiset.zero_add] using kept
    | _ => cases retires
  | false =>
    have still {u : State} {next : Task} (same : u.skeleton = s.skeleton) (other : next.isRetirement = false) :
        ∃ keeps : Key × Nat → Bool, Sound (u.recalled (table.filter keeps)).skeleton makers (↑next.grips + rest) := by
      refine ⟨fun _ => true,?_⟩
      rw [grips_of_other retires] at sound
      rw [List.filter_true,State.skeleton_recalled,same,← State.skeleton_recalled,grips_of_other other]
      exact sound
    exact (s.task_keeps_skeleton clock retires).mono (fun _ _ kept => still kept.1 kept.2) fun _ _ kept => still kept rfl

/-- The table and the tasks are as they were, and no entry comes back that was retired. -/
structure State.Withdraws (s t : State) : Prop where
  table : t.table = s.table
  tasks : t.tasks = s.tasks
  retires : s.skeleton.Retires t.skeleton

namespace State.Withdraws

theorem of_skeleton (same : t.skeleton = s.skeleton) (tasks : t.tasks = s.tasks) : s.Withdraws t where
  table := congrArg Skeleton.table same
  tasks := tasks
  retires := .of_same (by rw [same])

theorem askLock (s : State) (entry : Nat) : s.Withdraws (s.askLock entry) :=
  ⟨rfl,rfl,.of_same (by rw [skeleton_askLock]; rfl)⟩

theorem vacate (s : State) (entry ticket : Nat) : s.Withdraws (s.vacate entry ticket) :=
  ⟨rfl,rfl,(Skeleton.Retires.retire s.skeleton entry).trans (.of_same (by rw [skeleton_vacate]; rfl))⟩

theorem destroyed (withdraws : s.Withdraws t) (run : Nat) : s.Withdraws (t.destroyed run).1 := by
  rw [destroyed_eq]
  split
  · exact withdraws
  · exact ⟨withdraws.table,withdraws.tasks,withdraws.retires.trans (.of_same (by rw [skeleton_destroy]; rfl))⟩

end State.Withdraws

theorem Teardown.turn_withdraws (s : State) (run : Nat) (phase : Teardown) :
    (phase.turn clock run s).Leads (fun t _ => s.Withdraws t) (fun t _ => s.Withdraws t) :=
  ((s.teardown_keeps_skeleton clock run phase).and (phase.turn_tasks s run)).mono
    (fun _ _ kept => .of_skeleton kept.1 kept.2) fun _ _ kept => .of_skeleton kept.1 kept.2

theorem Retirement.turn_withdraws (s : State) (entry : Nat) (phase : Retirement) :
    (phase.turn clock entry s).Leads (fun t _ => s.Withdraws t) (fun t _ => s.Withdraws t) := by
  cases phase with
  | start => exact .askLock s entry
  | locking ticket =>
    have vacated : s.Withdraws (s.vacate entry ticket) := .vacate s entry ticket
    unfold turn
    dsimp only
    split
    · trivial
    · split
      · exact vacated
      · rename_i run _
        have gone := vacated.destroyed run
        split
        · rename_i u phase destroyed
          rw [State.vacate,destroyed] at gone
          exact gone
        · rename_i u destroyed
          rw [State.vacate,destroyed] at gone
          exact gone
  | tearing run phase =>
    exact (phase.turn_withdraws s run).within (fun _ _ withdraws => withdraws) fun _ _ withdraws => withdraws

theorem Task.turn_withdraws (s : State) (task : Task) :
    (task.turn clock s).Leads (fun t _ => s.Withdraws t) (fun t _ => s.Withdraws t) := by
  cases task with
  | watch run process =>
    unfold turn
    dsimp only
    split
    · exact .of_skeleton (s.skeleton_noteExit run) rfl
    · trivial
  | teardown run phase =>
    exact (phase.turn_withdraws s run).within (fun _ _ withdraws => withdraws) fun _ _ withdraws => withdraws
  | retirement entry phase =>
    exact (phase.turn_withdraws s entry).within (fun _ _ withdraws => withdraws) fun _ _ withdraws => withdraws
  | _ => trivial

/-- One of the tasks does something else, and what the others have in their hands is left to them. -/
theorem Task.grips_set {tasks : List Task} {number : Nat} {task : Task} (here : tasks[number]? = some task) :
    ∃ others : Multiset Grip, ↑(tasks.flatMap Task.grips) = ↑task.grips + others ∧
      ∀ next, ↑((tasks.set number next).flatMap Task.grips) = ↑(Task.grips next) + others := by
  obtain ⟨inside,same⟩ := List.getElem?_eq_some_iff.mp here
  let before := (tasks.take number).flatMap Task.grips
  let after := (tasks.drop (number + 1)).flatMap Task.grips
  have apart (next : Task) : (↑((tasks.set number next).flatMap Task.grips) : Multiset Grip) =
      ↑(Task.grips next) + ↑(before ++ after) := by
    rw [Multiset.coe_add,Multiset.coe_eq_coe,List.set_eq_take_append_cons_drop,if_pos inside,List.flatMap_append,
      List.flatMap_cons]
    exact List.perm_append_comm_assoc ..
  refine ⟨_,?_,apart⟩
  have self : tasks.set number task = tasks := by rw [← same,List.set_getElem_self]
  rw [← apart task,self]

namespace State

/-- What is shared out stays so when one of the tasks has its turn. -/
theorem taskTurn_sound {number : Nat} {grips : Multiset Grip} (turned : s.taskTurn? clock number = some t)
    (sound : Sound (s.recalled table).skeleton makers (grips + s.retiring)) :
    ∃ keeps : Key × Nat → Bool, Sound (t.recalled (table.filter keeps)).skeleton makers (grips + t.retiring) := by
  obtain ⟨_,u,next,_,⟨keeps,kept⟩,rfl⟩ := taskTurn?_leads (fun _ u next => ∃ keeps : Key × Nat → Bool,
      Sound (u.recalled (table.filter keeps)).skeleton makers
        (grips + ↑((u.tasks.set number next).flatMap Task.grips))) turned fun task here => by
    obtain ⟨others,before,after⟩ := Task.grips_set here
    have swap (x : Multiset Grip) : grips + (x + others) = x + (grips + others) := by
      rw [← Multiset.add_assoc,Multiset.add_comm grips,Multiset.add_assoc]
    rw [retiring,before,swap] at sound
    have kept {u : State} {next : Task} (withdraws : s.Withdraws u) (moved : ∃ keeps : Key × Nat → Bool,
        Sound (u.recalled (table.filter keeps)).skeleton makers (↑next.grips + (grips + others))) :
        ∃ keeps : Key × Nat → Bool, Sound (u.recalled (table.filter keeps)).skeleton makers
          (grips + ↑((u.tasks.set number next).flatMap Task.grips)) := by
      rw [withdraws.tasks,after next,swap]
      exact moved
    exact ((task.turn_sound sound).and (task.turn_withdraws s)).mono (fun _ _ both => kept both.2 both.1)
      fun _ _ both => kept both.2 both.1
  refine ⟨keeps,?_⟩
  rw [skeleton_recalled] at kept ⊢
  exact kept

theorem taskTurn_withdraws {number : Nat} (turned : s.taskTurn? clock number = some t) :
    t.table = s.table ∧ s.skeleton.Retires t.skeleton := by
  obtain ⟨_,u,next,_,withdraws,rfl⟩ := taskTurn?_leads (fun _ u _ => s.Withdraws u) turned fun task _ =>
    task.turn_withdraws s
  exact ⟨withdraws.table,withdraws.retires.trans (.of_same rfl)⟩

end State

theorem Teardown.turn_moves (s : State) (run : Nat) (phase : Teardown) :
    (phase.turn clock run s).Leads (fun _ next => next ≠ phase) (fun _ _ => True) := by
  cases phase with
  | start =>
    unfold turn
    dsimp only
    split <;> exact fun same => by cases same
  | terminating process wake =>
    unfold turn
    dsimp only
    split
    · trivial
    · exact fun same => by cases same
  | clearing => trivial

/-- A task that has its turn is not where it was. -/
theorem Task.turn_moves (s : State) (task : Task) :
    (task.turn clock s).Leads (fun _ next => next ≠ task) (fun _ destroyed => .over destroyed ≠ task) := by
  cases task with
  | watch run process =>
    unfold turn
    dsimp only
    split
    · exact fun same => by cases same
    · trivial
  | teardown run phase =>
    refine (phase.turn_moves s run).within (fun _ _ moved same => moved ?_) fun _ _ _ same => by cases same
    cases same
    rfl
  | retirement entry phase =>
    cases phase with
    | start => exact fun same => by cases same
    | locking ticket =>
      unfold turn Retirement.turn
      dsimp only
      split
      · trivial
      · split
        · exact fun same => by cases same
        · split <;> exact fun same => by cases same
    | tearing run phase =>
      have moved : (Retirement.turn clock entry (.tearing run phase) s).Leads (fun _ next => next ≠ .tearing run phase)
          (fun _ _ => True) := by
        refine (phase.turn_moves s run).within (fun _ _ moved same => moved ?_) fun _ _ _ => trivial
        cases same
        rfl
      refine moved.within (fun _ _ moved same => moved ?_) fun _ _ _ same => by cases same
      cases same
      rfl
  | _ => trivial

/-- Where tasks are only added, none has had its turn. -/
theorem State.Spawns.quiet (spawns : s.Spawns t) (number : Nat) : s.taskTurn? clock number ≠ some t := by
  intro turned
  obtain ⟨task,u,next,here,⟨withdraws,moved⟩,rfl⟩ := taskTurn?_leads
    (fun task u next => s.Withdraws u ∧ next ≠ task) turned fun task _ =>
      (task.turn_withdraws s).and (task.turn_moves s)
  obtain ⟨more,tasks,_⟩ := spawns
  have inside : number < s.tasks.length := (List.getElem?_eq_some_iff.mp here).1
  have there : (u.tasks.set number next)[number]? = (s.tasks ++ more)[number]? := congrArg (·[number]?) tasks
  rw [withdraws.tasks,List.getElem?_set_self inside,List.getElem?_append_left inside,here] at there
  exact moved (Option.some.inj there)

end Playout.Playback
