import Playout.Proofs.Playback.OneRun

/-!
Players that go away. When the one who asked for a session is gone while the call
waits, the call is dropped where it waits: it gives its ticket for the lock back and
lets go of the entry, and takes no further turn. A run that it has unbound, or made
and not bound, is lost: nobody answers for it any more. So a run is destroyed, or
bound, or was in the hands of a call that was dropped.
-/
namespace Playout.Playback

variable {policy : Policy} {clock : Clock} {conduct : Conduct}

/-- The state where a request for a session is dropped. -/
def Acquire.abandon (clock : Clock) (s : State) : Acquire → State
  | lookup | approaching _ | retrying => s
  | locking entry ticket | listing entry ticket _ | listed entry ticket _ _ | starting entry ticket _ =>
    (s.unlock entry ticket).letGo clock entry

/-- The state where the binding of a lease is dropped, and the lease with it. -/
def Bind.abandonOf (clock : Clock) (lease : Lease) (s : State) : Bind → State
  | begin | approaching _ | waiting .. => s.drop clock lease
  | locking _ _ ticket | starting ticket _ _ => (s.unlock lease.entry ticket).drop clock lease

/-- The state where the binding of a lease is dropped; a lease that is not pending waits for nothing. -/
def Bind.abandon (clock : Clock) (lease : Lease) (s : State) (phase : Bind) : State :=
  match lease.pending with
  | none => s.drop clock lease
  | some _ => phase.abandonOf clock lease s

/-- The state where a call is dropped that a player waits for. -/
def Call.abandon? (clock : Clock) (s : State) : Call → Option State
  | acquire _ phase => some (phase.abandon clock s)
  | bind grant phase => some (phase.abandon clock grant.lease s)
  | mark .. | report .. | cleanUp _ => none

/-- The runs in the hands of a call, which it does not let go when it is dropped. -/
def Grip.runs (g : Grip) : Grip := { fresh := g.fresh, taken := g.taken }

namespace Sound

variable {s t : State} {g : Grip} {rest : Multiset Grip} {makers : List Key} {entry ticket : Nat}

theorem abandon_idle (sound : Sound s.skeleton makers (g ::ₘ rest)) (idle : g.hold = .free)
    (same : t.skeleton = s.skeleton) : Sound t.skeleton makers (g.runs ::ₘ rest) := by
  rw [same]
  exact sound.ease ⟨.inr rfl,.inr rfl,idle.symm,rfl,rfl,List.nil_subset _⟩

theorem abandon_ticket (sound : Sound s.skeleton makers (g ::ₘ rest)) (has : g.hold.ticket? = some (entry,ticket))
    (freed : t.skeleton = s.skeleton.onLock entry (·.leave ticket)) : Sound t.skeleton makers (g.runs ::ₘ rest) := by
  rw [freed]
  exact (sound.leave has).ease ⟨.inr rfl,.inr rfl,rfl,rfl,rfl,List.nil_subset _⟩

end Sound

theorem Start.grip_ticket? (demand : Demand) (entry ticket : Nat) (phase : Start) :
    (phase.grip demand entry ticket).hold.ticket? = some (entry,ticket) := by
  cases phase <;> rfl

/-- A call that is dropped leaves the table and the other calls fitting together, and the runs that it had. -/
theorem Call.abandon_sound {s t : State} {makers : List Key} {rest : Multiset Grip} {call : Call}
    (sound : Sound s.skeleton makers (call.grip ::ₘ rest)) (dropped : call.abandon? clock s = some t) :
    Sound t.skeleton makers (call.grip.runs ::ₘ rest) := by
  cases call with
  | acquire demand phase =>
    cases dropped
    have freed (entry ticket : Nat) : ((s.unlock entry ticket).letGo clock entry).skeleton =
        s.skeleton.onLock entry (·.leave ticket) := by rw [State.skeleton_letGo,State.skeleton_unlock]
    cases phase with
    | lookup => exact sound.abandon_idle rfl rfl
    | approaching entry => exact sound.abandon_idle rfl rfl
    | retrying => exact sound.abandon_idle rfl rfl
    | starting entry ticket phase =>
      exact sound.abandon_ticket (phase.grip_ticket? demand entry ticket) (freed entry ticket)
    | _ => exact sound.abandon_ticket rfl (freed _ _)
  | bind grant phase =>
    cases dropped
    have given (s : State) : (s.drop clock grant.lease).skeleton = s.skeleton := s.skeleton_letGo clock grant.lease.entry
    have freed (ticket : Nat) : ((s.unlock grant.lease.entry ticket).drop clock grant.lease).skeleton =
        s.skeleton.onLock grant.lease.entry (·.leave ticket) := by rw [given,State.skeleton_unlock]
    simp only [Call.grip,Bind.grip,Bind.abandon] at sound ⊢
    cases pending : grant.lease.pending with
    | none =>
      rw [pending] at sound
      exact sound.abandon_idle rfl (given s)
    | some demand =>
      rw [pending] at sound
      cases phase with
      | locking deadline calls ticket => exact sound.abandon_ticket rfl (freed ticket)
      | starting ticket first phase =>
        exact sound.abandon_ticket (phase.grip_ticket? demand grant.lease.entry ticket) (freed ticket)
      | _ => exact sound.abandon_idle rfl (given s)
  | _ => cases dropped

namespace Traffic

/-- A history in which players may go away at any time, and what the calls had in their hands that were dropped. -/
inductive Interrupted (policy : Policy) (conduct : Conduct) : Multiset Grip → Traffic → Prop
  | start : Interrupted policy conduct 0 {}
  | step {lost : Multiset Grip} {w w' : Traffic} (before : Interrupted policy conduct lost w)
      (step : Step policy conduct w w') : Interrupted policy conduct lost w'
  | disconnect {lost : Multiset Grip} {w : Traffic} (before : Interrupted policy conduct lost w) (call : Call)
      (calls : Multiset Call) (going : w.calls = call ::ₘ calls) {s : State}
      (dropped : call.abandon? w.clock w.state = some s) :
      Interrupted policy conduct (call.grip.runs ::ₘ lost) { w with state := s, calls := calls }

variable {lost : Multiset Grip} {w : Traffic}

/-- A history in which nobody goes away. -/
theorem interrupted_of_reachable (reached : w.Reachable policy conduct) : Interrupted policy conduct 0 w := by
  induction reached with
  | refl => exact .start
  | tail _ step ih => exact ih.step step

theorem sound_of_interrupted (came : Interrupted policy conduct lost w) :
    Sound w.state.skeleton w.makers (w.grips + lost) := by
  induction came with
  | start => simpa [grips] using Sound.empty
  | step _ step ih => exact (step.change ih.listed.working).sound ih
  | @disconnect lost w _ call calls going s dropped ih =>
    simp only [grips,going,Multiset.map_cons,Multiset.cons_add] at ih
    rw [Multiset.add_cons]
    exact Call.abandon_sound ih dropped

/-- A run that was in the hands of a call when the call was dropped. -/
def IsLost (lost : Multiset Grip) (run : Nat) : Prop := ∃ g ∈ lost, g.fresh = some run ∨ g.taken = some run

/-- A run that is lost is lost for good: it is never destroyed, and no entry is ever bound to it. -/
theorem IsLost.unanswered {run : Nat} (gone : IsLost lost run) (came : Interrupted policy conduct lost w) :
    w.state.isDestroyed run = false ∧ ∀ entry, w.state.skeleton.bound? entry ≠ some run := by
  have owned := (sound_of_interrupted came).owned run
  simp only [Multiset.map_add,Multiset.count_add] at owned
  have counted : 0 < (lost.map Grip.fresh).count (some run) + (lost.map Grip.taken).count (some run) := by
    obtain ⟨g,member,made | taken⟩ := gone
    · have fresh := Multiset.count_pos.mpr (made ▸ Multiset.mem_map_of_mem Grip.fresh member)
      omega
    · have taken := Multiset.count_pos.mpr (taken ▸ Multiset.mem_map_of_mem Grip.taken member)
      omega
  constructor
  · rw [State.isDestroyed_skeleton,← Bool.toNat_eq_zero]
    omega
  · intro entry bound
    rw [Skeleton.bound?,Option.join_eq_some_iff] at bound
    have at_entry := List.count_pos_iff.mpr (List.mem_of_getElem? bound)
    omega

/-- Once all calls have come to their end or were dropped, the runs that are neither destroyed nor bound are those
    that calls had in their hands when they were dropped. -/
theorem lost_iff_unanswered (came : Interrupted policy conduct lost w) (quiet : w.calls = 0) (run : Nat) :
    IsLost lost run ↔ w.state.isDestroyed run = false ∧ ∀ entry, w.state.skeleton.bound? entry ≠ some run := by
  refine ⟨fun gone => gone.unanswered came,?_⟩
  rintro ⟨alive,unbound⟩
  have owned := (sound_of_interrupted came).owned run
  obtain ⟨unmade,untaken⟩ := no_runs_of_quiet quiet run
  have nowhere : w.state.skeleton.bindings.count (some run) = 0 := by
    rw [List.count_eq_zero]
    intro member
    obtain ⟨entry,found⟩ := List.mem_iff_getElem?.mp member
    exact unbound entry (by rw [Skeleton.bound?,found]; rfl)
  simp only [Multiset.map_add,Multiset.count_add,unmade,untaken,nowhere,← State.isDestroyed_skeleton,alive,
    Bool.toNat_false] at owned
  rcases Nat.eq_zero_or_pos ((lost.map Grip.fresh).count (some run)) with none | made
  · have taken : 0 < (lost.map Grip.taken).count (some run) := by omega
    obtain ⟨g,member,same⟩ := Multiset.mem_map.mp (Multiset.count_pos.mp taken)
    exact ⟨g,member,.inr same⟩
  · obtain ⟨g,member,same⟩ := Multiset.mem_map.mp (Multiset.count_pos.mp made)
    exact ⟨g,member,.inl same⟩

/-- A player that goes away while the directory of a new run is made loses the run that was unbound for it. -/
theorem lost_while_directory_is_made :
    ∃ lost w, Interrupted default .free lost w ∧ w.calls = 0 ∧ w.state.runs.length = 1 ∧
      w.state.isDestroyed 0 = false ∧ ∀ entry, w.state.skeleton.bound? entry ≠ some 0 := by
  have asked : Interrupted default .free _ _ := .step .start (.ask firstRequest trivial)
  have found := asked.step (.goesOn _ 0 rfl rfl)
  have entered := found.step (.goesOn _ 0 rfl rfl)
  have inside := entered.step (.goesOn _ 0 rfl rfl)
  have unbound := inside.step (.goesOn _ 0 rfl rfl)
  have rooted := unbound.step (.goesOn _ 0 rfl rfl)
  have made := rooted.step (.goesOn _ 0 rfl rfl)
  have served := made.step (.ends _ 0 rfl rfl)
  -- the run covers nothing under these limits, so that the same request needs another one
  have again := served.step (.ask firstRequest trivial)
  have found := again.step (.goesOn _ 0 rfl rfl)
  have entered := found.step (.goesOn _ 0 rfl rfl)
  have inside := entered.step (.goesOn _ 0 rfl rfl)
  have unbound := inside.step (.goesOn _ 0 rfl rfl)
  have gone := unbound.disconnect _ 0 rfl rfl
  exact ⟨_,_,gone,rfl,rfl,IsLost.unanswered ⟨_,Multiset.mem_cons_self _ _,.inr rfl⟩ gone⟩

end Traffic
end Playout.Playback
