import Playout.Proofs.Playback.History
import Playout.Proofs.Representation.Tiling

/-!
One run for a session. When no call is on the table, every run that is not
destroyed is the one that the table binds to the session it was made for.
-/
namespace Playout.Playback

/-- With the keys of a table apart, a key has the entry that stands beside it. -/
theorem State.find?_of_mem {s : State} {key : Key} {entry : Nat} (apart : (s.table.map (·.1)).Nodup)
    (member : (key,entry) ∈ s.table) : s.find? key = some entry := by
  cases found : s.find? key with
  | none => exact absurd (List.mem_map_of_mem member) (not_mem_of_find? found)
  | some other =>
    have same : (key,other) = (key,entry) := List.inj_on_of_nodup_map apart (mem_of_find? found) member rfl
    cases same
    rfl

namespace Traffic

variable {policy : Policy} {conduct : Conduct} {w : Traffic}

/-- The table has an entry for a key, one that has not left it and is bound to a run. -/
def Binds (w : Traffic) (key : Key) (run : Nat) : Prop :=
  ∃ entry e, w.state.find? key = some entry ∧ w.state.entries[entry]? = some e ∧ e.isRetired = false ∧
    e.run = some run

/-- A run that was made for a key and is not destroyed. -/
def IsLive (w : Traffic) (key : Key) (run : Nat) : Prop :=
  w.makers[run]? = some key ∧ w.state.isDestroyed run = false

/-- A bound run is bound in the entry that the table has for the key that it was made for. -/
theorem IsSound.binds (sound : w.IsSound) {entry run : Nat} (bound : w.state.skeleton.bound? entry = some run) :
    ∃ key, w.makers[run]? = some key ∧ w.Binds key run := by
  obtain ⟨key,made,listed⟩ := sound.listed.bound entry run bound
  have found : w.state.find? key = some entry := State.find?_of_mem sound.listed.keys listed
  rw [State.bound?_skeleton,Option.bind_eq_some_iff] at bound
  obtain ⟨e,at_entry,of_entry⟩ := bound
  refine ⟨key,made,entry,e,found,at_entry,?_,of_entry⟩
  cases retired : e.isRetired with
  | false => rfl
  | true =>
    have gone : w.state.skeleton.isRetired entry = true := by
      simp [Skeleton.isRetired,State.skeleton,at_entry,retired]
    have unbound := sound.listed.retired entry gone
    rw [State.bound?_skeleton,at_entry] at unbound
    cases of_entry.symm.trans unbound

/-- When no call is on the table, nobody has a run in its hands. -/
theorem no_runs_of_quiet (quiet : w.calls = 0) (run : Nat) :
    (w.grips.map Grip.fresh).count (some run) = 0 ∧ (w.grips.map Grip.taken).count (some run) = 0 := by
  have grips : w.grips = w.grants.map (·.lease.grip) := by simp [Traffic.grips,quiet]
  constructor
  · rw [grips,Multiset.map_map,Multiset.count_eq_zero]
    intro member
    obtain ⟨grant,_,made⟩ := Multiset.mem_map.mp member
    cases made
  · rw [grips,Multiset.map_map,Multiset.count_eq_zero]
    intro member
    obtain ⟨grant,_,taken⟩ := Multiset.mem_map.mp member
    cases taken

/-- When no call is on the table, a run that is not destroyed is bound. -/
theorem IsSound.bound_of_quiet (sound : w.IsSound) (quiet : w.calls = 0) {run : Nat}
    (alive : w.state.isDestroyed run = false) : ∃ entry, w.state.skeleton.bound? entry = some run := by
  have answers := sound.owned run
  obtain ⟨unmade,untaken⟩ := no_runs_of_quiet quiet run
  rw [← State.isDestroyed_skeleton,alive,unmade,untaken] at answers
  have bound : some run ∈ w.state.skeleton.bindings := by
    rw [← List.count_pos_iff]
    simp at answers
    omega
  obtain ⟨entry,found⟩ := List.mem_iff_getElem?.mp bound
  exact ⟨entry,by simp [Skeleton.bound?,found]⟩

/-- When no call is on the table, however the calls before went and whatever of the runs came to be,
    every run was made for a session, a session has at most one run that is not destroyed, and that
    run is the one that the table binds to the session. -/
theorem one_live_run_per_session (reached : w.Reachable policy conduct) (quiet : w.calls = 0) :
    w.makers.length = w.state.runs.length ∧
      (∀ key run, w.IsLive key run → w.Binds key run) ∧
      (∀ key run run', w.IsLive key run → w.IsLive key run' → run = run') := by
  have sound := sound_of_reachable reached
  have bound : ∀ key run, w.IsLive key run → w.Binds key run := by
    rintro key run ⟨made,alive⟩
    obtain ⟨entry,at_entry⟩ := sound.bound_of_quiet quiet alive
    obtain ⟨key',made',binds⟩ := sound.binds at_entry
    cases made.symm.trans made'
    exact binds
  refine ⟨by simpa [State.skeleton] using sound.listed.made,bound,?_⟩
  intro key run run' live live'
  obtain ⟨entry,e,found,at_entry,_,of_entry⟩ := bound key run live
  obtain ⟨entry',e',found',at_entry',_,of_entry'⟩ := bound key run' live'
  cases found.symm.trans found'
  cases at_entry.symm.trans at_entry'
  exact Option.some.inj (of_entry.symm.trans of_entry')

/-- A request for the first segment of the film. -/
def firstRequest : Demand := ⟨default,.segment 0,⟨film,.copied film,[0]⟩,"film.mkv"⟩

/-- A request for the header of the film. -/
def headerRequest : Demand := { firstRequest with request := .header }

/-- A request for the first segment of a film of two segments. -/
def shortFilm : Demand := { firstRequest with rendering := { firstRequest.rendering with starts := [0,10] } }

theorem one_live_run_after_first_request :
    ∃ w : Traffic, w.Reachable default .free ∧ w.calls = 0 ∧ w.IsLive default 0 ∧ w.Binds default 0 := by
  have asked : Reachable default .free _ := .tail .refl (.ask firstRequest trivial)
  have found := asked.tail (.goesOn _ 0 rfl rfl)
  have entered := found.tail (.goesOn _ 0 rfl rfl)
  have inside := entered.tail (.goesOn _ 0 rfl rfl)
  have unbound := inside.tail (.goesOn _ 0 rfl rfl)
  have rooted := unbound.tail (.goesOn _ 0 rfl rfl)
  have made := rooted.tail (.goesOn _ 0 rfl rfl)
  have served := made.tail (.ends _ 0 rfl rfl)
  exact ⟨_,served,rfl,⟨rfl,rfl⟩,(one_live_run_per_session served rfl).2.1 default 0 ⟨rfl,rfl⟩⟩

end Traffic
end Playout.Playback
