import Playout.Proofs.Playback.Asides
import Playout.Proofs.Playback.Decision

/-!
The start of a run, turn by turn, while others have turns in between. What is known at
each of its phases (`Start.Stands`) stays true while nothing becomes of the sessions, and
when runs can be started every turn leads to the next phase or to a run that is launched
and bound in the place of the old one (`State.Launched`).
-/
namespace Playout.Playback

/-- What the table notes of a key; nothing if it has no entry. -/
def State.noteOf (s : State) (key : Key) : Note := ((s.find? key).map s.noteAt).getD {}

namespace State

variable {s t : State} {key : Key}

theorem noteOf_of_found {entry : Nat} (found : s.find? key = some entry) : s.noteOf key = s.noteAt entry := by
  rw [noteOf,found]
  rfl

theorem run_noteOf (s : State) (key : Key) : (s.noteOf key).run = s.boundTo? key := by
  rw [noteOf,boundTo?_eq]
  cases s.find? key with
  | none => rfl
  | some entry => exact s.run_noteAt entry

theorem SameSessions.find? (same : s.SameSessions t) (key : Key) : t.find? key = s.find? key := by
  rw [State.find?,same.table]
  rfl

theorem SameSessions.noteOf (same : s.SameSessions t) (key : Key) :
    (t.noteOf key).run = (s.noteOf key).run ∧ (t.noteOf key).requested = (s.noteOf key).requested := by
  rw [State.noteOf,State.noteOf,same.find?]
  cases s.find? key with
  | none => exact ⟨rfl,rfl⟩
  | some entry => exact ⟨same.run entry,same.requested entry⟩

theorem callsOf_unbindRun (s : State) (entry other : Nat) :
    Bind.callsOf (s.unbindRun entry) other = Bind.callsOf s other := by
  apply callsOf_onEntry
  exact fun _ => rfl

theorem run_noteAt_unbindRun (s : State) (entry other : Nat) :
    ((s.unbindRun entry).noteAt other).run = if entry = other then none else (s.noteAt other).run := by
  have bound : (s.skeleton.bind entry none).bound? other = if entry = other then none else s.skeleton.bound? other :=
    s.skeleton.bound?_bind_none entry other
  rw [run_noteAt,run_noteAt,← bound,skeleton_unbindRun]
  cases s.skeleton.bound? entry <;> rfl

/-- Entries and runs are made, and nothing becomes of those that there were, but that runs are unbound. -/
structure Grows (s t : State) : Prop where
  find : ∀ key entry, s.find? key = some entry → t.find? key = some entry
  unbinds : ∀ entry, (t.noteAt entry).run = (s.noteAt entry).run ∨ (t.noteAt entry).run = none
  launches : t.launches = s.launches
  jobs : s.skeleton.jobs <+: t.skeleton.jobs
  destroyed : s.skeleton.destroyed <+: t.skeleton.destroyed
  calls : ∀ entry, Bind.callsOf t entry = Bind.callsOf s entry

theorem SameSessions.grows (same : s.SameSessions t) : s.Grows t where
  find key _ found := (same.find? key).trans found
  unbinds entry := .inl (same.run entry)
  launches := same.launches
  jobs := same.jobs ▸ List.prefix_refl _
  destroyed := same.destroyed ▸ List.prefix_refl _
  calls := same.calls

theorem Grows.refl (s : State) : s.Grows s := (SameSessions.refl s).grows

theorem Grows.isDestroyed (grows : s.Grows t) {run : Nat} (old : run < s.runs.length) :
    t.skeleton.isDestroyed run = s.skeleton.isDestroyed run := by
  have inside : run < s.skeleton.destroyed.length := by simpa [skeleton] using old
  obtain ⟨more,destroyed⟩ := grows.destroyed
  rw [Skeleton.isDestroyed,Skeleton.isDestroyed,← destroyed,List.getElem?_append_left inside]

/-- A run is launched and bound to the entry of an order, those that wait there are called, and the run that was bound
    there is destroyed. -/
structure Launched (policy : Policy) (s : State) (o : Order) (old : Option Nat) (run : Nat) (t : State) : Prop where
  table : t.table = s.table
  launches : t.launches = s.launches ++ [run]
  jobs : t.skeleton.jobs = s.skeleton.jobs
  destroyed : t.skeleton.destroyed = (s.skeleton.discard old).destroyed
  note : t.noteAt o.entry = ⟨some run,o.first,none⟩
  calls : Bind.callsOf t o.entry = Bind.callsOf s o.entry + 1
  made : s.skeleton.jobs[run]? = some (o.job policy run)
  alive : s.skeleton.isDestroyed run = false
  other : old ≠ some run

theorem Launched.noteOf {policy : Policy} {o : Order} {old : Option Nat} {run : Nat}
    (launched : State.Launched policy s o old run t) (found : s.find? key = some o.entry) :
    t.find? key = some o.entry ∧ t.noteOf key = ⟨some run,o.first,none⟩ := by
  have same : t.find? key = some o.entry := by
    rw [State.find?,launched.table]
    exact found
  exact ⟨same,(noteOf_of_found same).trans launched.note⟩

end State

/-- What is known at a phase of the start of a run for an order, when a run was bound or none. -/
def Start.Stands (policy : Policy) (o : Order) (old : Option Nat) (s : State) : Start → Prop
  | begin => (s.noteAt o.entry).run = old
  | makeRoot replaced | makeDirectory replaced => (s.noteAt o.entry).run = none ∧ replaced = old
  | launch replaced run => ((s.noteAt o.entry).run = none ∧ replaced = old) ∧
      s.skeleton.jobs[run]? = some (o.job policy run) ∧ s.skeleton.isDestroyed run = false ∧ old ≠ some run
  | discard .. => False

variable {policy : Policy} {o : Order} {old : Option Nat} {s t : State}

theorem Start.Stands.same {phase : Start} (stands : phase.Stands policy o old s) (same : s.SameSessions t) :
    phase.Stands policy o old t := by
  cases phase with
  | begin => exact (same.run o.entry).trans stands
  | makeRoot replaced => exact ⟨(same.run o.entry).trans stands.1,stands.2⟩
  | makeDirectory replaced => exact ⟨(same.run o.entry).trans stands.1,stands.2⟩
  | launch replaced run =>
    obtain ⟨⟨unbound,replaced⟩,made,alive,other⟩ := stands
    refine ⟨⟨(same.run o.entry).trans unbound,replaced⟩,same.jobs ▸ made,?_,other⟩
    rw [Skeleton.isDestroyed,same.destroyed]
    exact alive
  | discard replaced run why => exact stands

/-- A start that found no run bound stands where it stood while runs are made. -/
theorem Start.Stands.grow {phase : Start} (stands : phase.Stands policy o none s) (grows : s.Grows t) :
    phase.Stands policy o none t := by
  have still (unbound : (s.noteAt o.entry).run = none) : (t.noteAt o.entry).run = none := by
    rcases grows.unbinds o.entry with same | gone
    · exact same.trans unbound
    · exact gone
  cases phase with
  | begin => exact still stands
  | makeRoot replaced => exact ⟨still stands.1,stands.2⟩
  | makeDirectory replaced => exact ⟨still stands.1,stands.2⟩
  | launch replaced run =>
    obtain ⟨⟨unbound,replaced⟩,made,alive,other⟩ := stands
    have old : run < s.runs.length := by simpa [State.skeleton] using Skeleton.lt_of_alive alive
    exact ⟨⟨still unbound,replaced⟩,getElem?_of_grows grows.jobs made,(grows.isDestroyed old).trans alive,other⟩
  | discard replaced run why => exact stands

theorem Start.Stands.unbound {phase : Start} (stands : phase.Stands policy o none s) :
    (s.noteAt o.entry).run = none := by
  cases phase with
  | begin => exact stands
  | makeRoot replaced => exact stands.1
  | makeDirectory replaced => exact stands.1
  | launch replaced run => exact stands.1.1
  | discard replaced run why => exact stands.elim

/-- A turn of the start of a run, when runs can be started. -/
theorem Start.turn_stands (phase : Start) (ticket : Nat) (inside : o.entry < s.skeleton.locks.length)
    (launches : s.Launches) (known : ∀ run, old = some run → run < s.runs.length)
    (stands : phase.Stands policy o old s) :
    (phase.turn policy o s).Leads (fun t next => s.Grows t ∧ next.Stands policy o old t)
      (fun t started => ∃ run, started = ⟨old,.ok run⟩ ∧
        State.Launched policy s o old run ((t.unlock o.entry ticket).replace started)) := by
  cases phase with
  | begin =>
    have skeleton := s.skeleton_unbindRun o.entry
    have unbinds := s.run_noteAt_unbindRun o.entry
    have grows : s.Grows (s.unbindRun o.entry) := by
      refine ⟨fun _ _ found => found,?_,rfl,?_,?_,s.callsOf_unbindRun o.entry⟩
      · intro other
        rw [unbinds other]
        split
        · exact .inr rfl
        · exact .inl rfl
      · rw [skeleton]
        cases s.skeleton.bound? o.entry <;> exact List.prefix_refl _
      · rw [skeleton]
        cases s.skeleton.bound? o.entry <;> exact List.prefix_refl _
    refine ⟨grows,?_,?_⟩
    · rw [unbinds,if_pos rfl]
    · rw [← s.bound?_skeleton,← s.run_noteAt]
      exact stands
  | makeRoot replaced =>
    simp only [turn,launches.root]
    exact ⟨.refl s,stands⟩
  | makeDirectory replaced =>
    simp only [turn,launches.directory]
    refine ⟨⟨fun _ _ found => found,fun _ => .inl rfl,rfl,?_,?_,fun _ => rfl⟩,stands,?_,?_,
      fun same => absurd (known _ same) (Nat.lt_irrefl _)⟩
    · simp [State.skeleton]
    · simp [State.skeleton]
    · simp [State.skeleton]
    · simp [Skeleton.isDestroyed,State.skeleton]
  | launch replaced run =>
    obtain ⟨⟨unbound,rfl⟩,made,alive,other⟩ := stands
    obtain ⟨t,launched,more⟩ := State.launch_of_launches launches run
    have skeleton := s.skeleton_launch launched
    have entries := s.entries_launch launched
    obtain ⟨e,here⟩ := s.entry_of_given inside
    have settled : (((t.bindRun o.entry run o.first).unlock o.entry ticket).replace ⟨replaced,.ok run⟩).skeleton =
        ((t.bindRun o.entry run o.first).skeleton.onLock o.entry (·.leave ticket)).discard replaced := by
      rw [State.skeleton_replace,State.skeleton_unlock]
    simp only [turn,launched]
    refine ⟨run,rfl,?_,?_,?_,?_,?_,?_,made,alive,other⟩
    · have table := congrArg Skeleton.table settled
      rw [State.skeleton_bindRun,skeleton] at table
      cases replaced <;> exact table
    · rw [(State.beside_replace _ _).launches]
      exact more
    · rw [settled,State.skeleton_bindRun,skeleton]
      cases replaced <;> rfl
    · rw [settled,State.skeleton_bindRun,skeleton]
      cases replaced <;> rfl
    · rw [State.noteAt_replace,State.noteAt_unlock]
      refine State.noteAt_of_found (e := { e with
        run := some run, lastRequested := o.first, lastServed := none, calls := e.calls + 1 }) ?_
      rw [State.bindRun,State.onEntry]
      simp [entries,here]
    · rw [Bind.callsOf,(State.beside_replace _ _).entries]
      simp [Bind.callsOf,State.unlock,State.bindRun,State.onEntry,entries,here]
  | discard replaced run why => exact stands.elim

namespace Acquire

/-- The key of a request gets an entry, and of it is noted what was noted of the key. -/
theorem noteOf_enter (s : State) (clock : Clock) (key : Key) :
    (enter clock key s).1.find? key = some (enter clock key s).2 ∧
      (enter clock key s).1.noteAt (enter clock key s).2 = s.noteOf key := by
  refine ⟨?_,?_⟩
  · unfold enter
    cases found : s.find? key with
    | some entry => exact found
    | none =>
      have missing : s.table.find? (·.1 == key) = none := by simpa [State.find?] using found
      simp [State.find?,List.find?_append,missing]
  · rw [State.noteAt_enter]
    unfold enter
    cases found : s.find? key with
    | some entry => exact (State.noteOf_of_found found).symm
    | none => simp [State.noteAt,State.noteOf,found]

theorem runs_enter (s : State) (clock : Clock) (key : Key) :
    (enter clock key s).1.launches = s.launches ∧ (enter clock key s).1.runs = s.runs := by
  unfold enter
  split <;> exact ⟨rfl,rfl⟩

theorem grows_enter (s : State) (clock : Clock) (key : Key) : s.Grows (enter clock key s).1 := by
  obtain ⟨launches,runs⟩ := runs_enter s clock key
  refine ⟨?_,fun entry => .inl (by rw [State.noteAt_enter]),launches,?_,?_,?_⟩
  · intro other entry found
    unfold enter
    split
    · exact found
    · simp only [State.find?,Option.map_eq_some_iff] at found ⊢
      obtain ⟨p,found,is⟩ := found
      exact ⟨p,by rw [List.find?_append,found]; rfl,is⟩
  · simp only [State.skeleton,runs]
    exact List.prefix_refl _
  · simp only [State.skeleton,runs]
    exact List.prefix_refl _
  · intro other
    unfold enter
    split
    · rfl
    · simp only [Bind.callsOf,List.getElem?_append]
      split
      · rfl
      · rename_i outside
        rw [List.getElem?_eq_none (Nat.le_of_not_lt outside),List.getElem?_singleton]
        split <;> rfl

end Acquire
end Playout.Playback
