import Playout.Proofs.Playback.History

/-!
How often entries are held. What a call does to the references that the entries
count is one of few shifts: nothing, one more or one less for an entry, or a new
entry (`Shift`). So the references of an entry stay the number of those who hold it
(`Counted`).
-/
namespace Playout.Playback

namespace State

variable (s : State)

/-! ### What goes on beside the sessions -/

/-- Nothing becomes of the entries, and no run is started. -/
structure Beside (s t : State) : Prop where
  entries : t.entries = s.entries
  launches : t.launches = s.launches

theorem Beside.refl : s.Beside s := ⟨rfl,rfl⟩

theorem beside_destroyed (run : Nat) : s.Beside (s.destroyed run).1 := by
  unfold destroyed
  split <;> exact ⟨rfl,rfl⟩

theorem beside_replace (started : Started) : s.Beside (s.replace started) := by
  unfold replace
  split
  · unfold destroyDetached
    split <;> exact ⟨rfl,rfl⟩
  · exact .refl s

theorem entries_launch {run : Nat} {t : State} (launched : s.launch run = .ok t) : t.entries = s.entries := by
  unfold launch at launched
  split at launched
  · cases launched
  · cases launched
    rfl

theorem beside_signalRun (run : Nat) (pause : Bool) (source target : Stage) :
    s.Beside (s.signalRun run pause source target).1 := by
  unfold signalRun
  split
  · exact .refl s
  · split
    · split
      · rename_i sent
        simp only [signal?,Option.bind_eq_bind,Option.bind_eq_some_iff] at sent
        obtain ⟨_,_,_,_,_,_,same⟩ := sent
        cases same
        exact ⟨rfl,rfl⟩
      · exact .refl s
    · exact .refl s

theorem teardown_beside (clock : Clock) (run : Nat) (phase : Teardown) :
    (phase.turn clock run s).Leads (fun t _ => s.Beside t) (fun t _ => s.Beside t) := by
  cases phase with
  | start =>
    unfold Teardown.turn
    dsimp only
    split <;> exact ⟨rfl,rfl⟩
  | terminating process wake =>
    unfold Teardown.turn
    dsimp only
    split
    · trivial
    · exact ⟨rfl,rfl⟩
  | clearing => exact ⟨rfl,rfl⟩

/-- A task that is no retirement goes on beside the sessions. -/
theorem task_beside (clock : Clock) {task : Task} (other : task.isRetirement = false) :
    (task.turn clock s).Leads (fun t _ => s.Beside t) (fun t _ => s.Beside t) := by
  cases task with
  | watch run process =>
    unfold Task.turn
    dsimp only
    split
    · exact ⟨rfl,rfl⟩
    · trivial
  | teardown run phase =>
    exact (s.teardown_beside clock run phase).within (fun _ _ beside => beside) (fun _ _ beside => beside)
  | retirement entry phase => cases other
  | _ => trivial

theorem beside_taskTurn {clock : Clock} {number : Nat} {t : State} (working : s.skeleton.isShuttingDown = false)
    (turned : s.taskTurn? clock number = some t) : s.Beside t := by
  obtain ⟨_,u,_,_,beside,rfl⟩ := taskTurn?_leads (fun _ u _ => s.Beside u) turned fun task here =>
    s.task_beside clock (other_of_working working here)
  exact ⟨beside.entries,beside.launches⟩

theorem beside_event (event : Event) : s.Beside (event.apply s) := by
  cases event <;> exact ⟨rfl,rfl⟩

/-! ### References -/

/-- How often each entry is held. -/
def references (s : State) : List Nat := s.entries.map (·.references)

theorem references_onEntry {f : Entry → Entry} (keeps : ∀ e, (f e).references = e.references) (entry : Nat) :
    (s.onEntry entry f).references = s.references := map_modify_self keeps _ _

theorem references_of_entries {t : State} (same : t.entries = s.entries) : t.references = s.references := by
  rw [references,same]
  rfl

@[simp] theorem references_hold (entry : Nat) : (s.hold entry).references = s.references.modify entry (· + 1) :=
  map_modify_eq (p := fun e : Entry => e.references) (fun _ => rfl) _ _

@[simp] theorem references_letGo (clock : Clock) (entry : Nat) :
    (s.letGo clock entry).references = s.references.modify entry (· - 1) :=
  map_modify_eq (p := fun e : Entry => e.references) (fun _ => rfl) _ _

@[simp] theorem references_askLock (entry : Nat) : (s.askLock entry).references = s.references := by
  apply references_onEntry
  exact fun _ => rfl

@[simp] theorem references_unlock (entry ticket : Nat) : (s.unlock entry ticket).references = s.references := by
  apply references_onEntry
  exact fun _ => rfl

@[simp] theorem references_unbindRun (entry : Nat) : (s.unbindRun entry).references = s.references := by
  apply references_onEntry
  exact fun _ => rfl

@[simp] theorem references_bindRun (entry run first : Nat) : (s.bindRun entry run first).references = s.references := by
  apply references_onEntry
  exact fun _ => rfl

@[simp] theorem references_retire (entry : Nat) : (s.retire entry).references = s.references := by
  apply references_onEntry
  exact fun _ => rfl

@[simp] theorem references_replace (started : Started) : (s.replace started).references = s.references :=
  s.references_of_entries (s.beside_replace started).entries

end State

/-- What becomes of the references of the entries when somebody holds one entry, or none, and then another one. -/
inductive Shift : Option Nat → Option Nat → List Nat → List Nat → Prop
  | stays {held : Option Nat} {references : List Nat} : Shift held held references references
  | lets {entry : Nat} {references : List Nat} :
      Shift (some entry) none references (references.modify entry (· - 1))
  | takes {entry : Nat} {references : List Nat} (inside : entry < references.length) :
      Shift none (some entry) references (references.modify entry (· + 1))
  /-- An entry comes that nobody holds yet. -/
  | joins {held : Option Nat} {references : List Nat} : Shift held held references (references ++ [0])

/-- Every entry counts those who hold it. -/
def Counted (references : List Nat) (holders : Multiset (Option Nat)) : Prop :=
  ∀ entry, references[entry]?.getD 0 = holders.count (some entry)

theorem getD_modify (references : List Nat) (entry other : Nat) (f : Nat → Nat) (inside : entry < references.length) :
    (references.modify entry f)[other]?.getD 0 =
      if entry = other then f (references[other]?.getD 0) else references[other]?.getD 0 := by
  rw [List.getElem?_modify]
  by_cases same : entry = other
  · subst same
    simp [inside]
  · simp [same]

theorem Counted.shift {references references' : List Nat} {held held' : Option Nat} {rest : Multiset (Option Nat)}
    (counted : Counted references (held ::ₘ rest)) (shift : Shift held held' references references') :
    Counted references' (held' ::ₘ rest) := by
  intro other
  have before := counted other
  rw [Multiset.count_cons] at before ⊢
  cases shift with
  | stays => exact before
  | @lets entry =>
    have inside : entry < references.length := by
      by_contra outside
      have counts := counted entry
      rw [Multiset.count_cons_self,List.getElem?_eq_none (Nat.le_of_not_lt outside)] at counts
      exact absurd counts (by simp)
    rw [getD_modify _ _ _ _ inside,before]
    by_cases same : entry = other
    · subst same
      simp
    · simp [same,Ne.symm same]
  | @takes entry _ inside =>
    rw [getD_modify _ _ _ _ inside,before]
    by_cases same : entry = other
    · subst same
      simp
    · simp [same,Ne.symm same]
  | joins =>
    rw [← before,List.getElem?_append]
    split
    · rfl
    · rename_i outside
      rw [List.getElem?_eq_none (Nat.le_of_not_lt outside),List.getElem?_singleton]
      split <;> rfl

theorem Counted.of_free {references : List Nat} {rest : Multiset (Option Nat)} :
    Counted references (none ::ₘ rest) ↔ Counted references rest := by
  simp only [Counted,Multiset.count_cons,reduceCtorEq,if_false,Nat.add_zero]

/-- Nobody holds an entry that counts no reference. -/
theorem Counted.not_held {references : List Nat} {holders : Multiset (Option Nat)} (counted : Counted references holders)
    {entry : Nat} (unheld : references[entry]?.getD 0 = 0) : some entry ∉ holders := by
  rw [counted entry] at unheld
  exact Multiset.count_eq_zero.mp unheld

/-- The key of a request gets an entry. -/
theorem Acquire.enter_shift (s : State) (clock : Clock) (key : Key) {held : Option Nat} :
    Shift held held s.references (enter clock key s).1.references := by
  unfold enter
  cases s.find? key with
  | some entry => exact .stays
  | none =>
    have joined : (s.entries ++ [({ lastAccess := clock.nanos } : Entry)]).map (·.references) = s.references ++ [0] :=
      List.map_append
    dsimp only [State.references] at joined ⊢
    rw [joined]
    exact .joins

end Playout.Playback
