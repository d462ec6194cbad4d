import Playout.Proofs.Playback.Asides

/-!
How calls come to their end. A call that stands first in the queue of a lock can take a
turn, so that a call which waits for a lock waits for one that can (`someone_turns`).
The turns that a call has left become fewer with every turn, unless its entry has left
the table meanwhile.
-/
namespace Playout.Playback

variable {policy : Policy} {clock : Clock} {s : State} {entry ticket : Nat}

theorem State.locked_of_head (head : (ticketsAt s.skeleton.locks entry).head? = some ticket) :
    ∃ e, s.locked? entry ticket = some e := by
  cases found : s.entries[entry]? with
  | none => simp [ticketsAt,skeleton,found] at head
  | some e =>
    have first : e.lock.queue.head? = some ticket := by simpa [ticketsAt,skeleton,found] using head
    exact ⟨e,by simp [locked?,found,Lock.isHeldBy,first]⟩

/-! ### Who does not wait -/

theorem Start.turn_goes (phase : Start) (order : Order) : ¬ (phase.turn policy order s).Waits := by
  cases phase <;> unfold turn <;> dsimp only <;> first | exact id | (split <;> exact id)

theorem Acquire.settle_goes (started : Started) : ¬ (settle clock entry ticket s started).Waits := by
  unfold settle
  split <;> exact id

/-- A request for a session waits only for the lock of its entry, while it is not first there. -/
theorem Acquire.turn_goes (phase : Acquire) (demand : Demand)
    (first : ∀ entry ticket, phase = .locking entry ticket → (ticketsAt s.skeleton.locks entry).head? = some ticket) :
    ¬ (phase.turn policy clock demand s).Waits := by
  cases phase with
  | locking entry ticket =>
    obtain ⟨e,locked⟩ := State.locked_of_head (first entry ticket rfl)
    simp only [turn,locked]
    unfold decide
    split
    · exact id
    · split
      · exact id
      · exact id
      · split
        · split <;> exact id
        · exact id
      · exact id
  | listed entry ticket run holds =>
    unfold turn
    dsimp only
    split <;> exact id
  | starting entry ticket phase => exact Turn.not_waits_within (phase.turn_goes _) (fun _ started => settle_goes started)
  | _ => exact id

/-- The binding of a lease that has a ticket waits only while it is not first at the lock. -/
theorem Bind.turn_goes (phase : Bind) (lease : Lease) (has : (phase.grip lease).hold.ticket? = some (entry,ticket))
    (head : (ticketsAt s.skeleton.locks entry).head? = some ticket) : ¬ (phase.turn policy clock lease s).Waits := by
  unfold turn grip at *
  cases pending : lease.pending with
  | none => exact id
  | some demand =>
    rw [pending] at has
    cases phase with
    | locking deadline calls ticket' =>
      cases has
      obtain ⟨e,locked⟩ := State.locked_of_head head
      simp only [locked]
      unfold decide
      dsimp only
      split
      · exact id
      · split
        · exact id
        · split <;> exact id
    | starting ticket' first phase =>
      refine Turn.not_waits_within (phase.turn_goes _) (fun t started => ?_)
      unfold settle
      split <;> exact id
    | _ => cases has

theorem Served.turn_goes (phase : Served) (lease : Lease) (index : Nat) (highest : Option Nat)
    (first : ∀ entry ticket, (phase.grip lease).hold.ticket? = some (entry,ticket) →
      (ticketsAt s.skeleton.locks entry).head? = some ticket) :
    ¬ (phase.turn policy lease index highest s).Waits := by
  unfold turn grip at *
  cases bound : lease.run with
  | none => exact id
  | some run =>
    rw [bound] at first
    cases phase with
    | begin => exact id
    | locking ticket =>
      obtain ⟨e,locked⟩ := State.locked_of_head (first lease.entry ticket rfl)
      simp only [locked]
      split <;> exact id
    | noted lastServed =>
      dsimp only
      split <;> exact id

theorem Feedback.turn_goes (phase : Feedback) (id : RunId) (report : Encoder.Report)
    (first : ∀ entry ticket, phase.grip.hold.ticket? = some (entry,ticket) →
      (ticketsAt s.skeleton.locks entry).head? = some ticket) :
    ¬ (phase.turn policy id report s).Waits := by
  unfold turn
  cases phase with
  | lookup =>
    dsimp only
    split <;> exact False.elim
  | locking run entry ticket =>
    obtain ⟨e,locked⟩ := State.locked_of_head (first entry ticket rfl)
    simp only [locked]
    split <;> exact False.elim
  | recording run lastServed =>
    dsimp only
    split <;> exact False.elim
  | listing run lastServed => exact False.elim
  | listed run lastServed available =>
    dsimp only
    split
    · split <;> exact False.elim
    · exact False.elim

theorem Call.granted_goes (demand : Demand) (t : State) (r : Result Lease) : ¬ (granted demand t r).Waits := by
  cases r <;> exact id

/-- A call that is first at a lock can take a turn. -/
theorem Call.turn_goes (call : Call) (has : call.grip.hold.ticket? = some (entry,ticket))
    (head : (ticketsAt s.skeleton.locks entry).head? = some ticket) : ¬ (call.turn policy clock s).Waits := by
  have first {h : Hold} (has : h.ticket? = some (entry,ticket)) (entry' ticket' : Nat)
      (has' : h.ticket? = some (entry',ticket')) : (ticketsAt s.skeleton.locks entry').head? = some ticket' := by
    cases has.symm.trans has'
    exact head
  cases call with
  | acquire demand phase =>
    refine Turn.not_waits_within (phase.turn_goes demand fun entry' ticket' is => ?_) (granted_goes demand)
    subst is
    exact first has entry' ticket' rfl
  | bind grant phase => exact Turn.not_waits_within (phase.turn_goes grant.lease has head) (granted_goes grant.demand)
  | mark lease index highest phase =>
    exact Turn.not_waits_within (phase.turn_goes lease index highest (first has)) (fun _ _ => id)
  | report id found phase => exact Turn.not_waits_within (phase.turn_goes id found (first has)) (fun _ _ => False.elim)
  | cleanUp phase => cases phase <;> cases has

namespace Traffic

/-- Where a call has a ticket, there is a call that can take a turn. -/
theorem IsSound.someone_turns {w : Traffic} (sound : w.IsSound) {call : Call} (going : call ∈ w.calls)
    (has : call.grip.hold.ticket? = some (entry,ticket)) :
    ∃ call' ∈ w.calls, ¬ (call'.turn policy w.clock w.state).Waits := by
  have counted (ticket : Nat) : some (entry,ticket) ∈ (w.grips.map Grip.hold).map Hold.ticket? ↔
      ticket ∈ ticketsAt w.state.skeleton.locks entry := by
    rw [← Multiset.count_pos,sound.queued.counted,List.count_pos_iff]
  have queued : ticket ∈ ticketsAt w.state.skeleton.locks entry := by
    rw [← counted,← has]
    exact Multiset.mem_map_of_mem _ (Multiset.mem_map_of_mem _
      (Multiset.mem_add.mpr (.inl (Multiset.mem_map_of_mem Call.grip going))))
  obtain ⟨first,rest,queue⟩ := List.exists_cons_of_ne_nil (List.ne_nil_of_mem queued)
  have head : (ticketsAt w.state.skeleton.locks entry).head? = some first := by rw [queue]; rfl
  have holder : some (entry,first) ∈ (w.grips.map Grip.hold).map Hold.ticket? := by
    rw [counted,queue]
    exact List.mem_cons_self
  obtain ⟨h,holds,has'⟩ := Multiset.mem_map.mp holder
  obtain ⟨g,member,rfl⟩ := Multiset.mem_map.mp holds
  rcases Multiset.mem_add.mp member with called | leased
  · obtain ⟨call',going',rfl⟩ := Multiset.mem_map.mp called
    exact ⟨call',going',call'.turn_goes has' head⟩
  · obtain ⟨grant,_,rfl⟩ := Multiset.mem_map.mp leased
    cases has'

end Traffic

/-! ### Who stays in the table -/

/-- Only a round of cleaning up takes an entry out of the table. -/
theorem Call.cleans_of_retires {call : Call} {key : Key} (retires : call.grip.hold = .retires key entry) :
    ∃ phase, call = .cleanUp phase := by
  cases call with
  | acquire demand phase =>
    cases phase with
    | starting entry ticket phase => cases phase <;> cases retires
    | _ => cases retires
  | bind grant phase =>
    simp only [grip,Bind.grip] at retires
    cases pending : grant.lease.pending with
    | none =>
      rw [pending] at retires
      cases retires
    | some demand =>
      rw [pending] at retires
      cases phase with
      | starting ticket first phase => cases phase <;> cases retires
      | _ => cases retires
  | mark lease index highest phase =>
    simp only [grip,Served.grip] at retires
    cases bound : lease.run with
    | none =>
      rw [bound] at retires
      cases retires
    | some run =>
      rw [bound] at retires
      cases phase <;> cases retires
  | report id found phase => cases phase <;> cases retires
  | cleanUp phase => exact ⟨phase,rfl⟩

/-- While nobody cleans up, the entry of a key is there and has not left the table. -/
theorem Traffic.IsSound.stays {w : Traffic} (sound : w.IsSound) (kept : ∀ phase, .cleanUp phase ∉ w.calls) {key : Key}
    (found : w.state.find? key = some entry) :
    entry < w.state.skeleton.locks.length ∧ w.state.skeleton.isRetired entry = false := by
  have listed := State.mem_of_find? found
  refine ⟨sound.listed.table _ listed,?_⟩
  rw [Bool.eq_false_iff]
  intro retired
  obtain ⟨g,member,retires⟩ := sound.leaving key entry listed retired
  rcases Multiset.mem_add.mp member with called | leased
  · obtain ⟨call,going,rfl⟩ := Multiset.mem_map.mp called
    obtain ⟨phase,rfl⟩ := Call.cleans_of_retires retires
    exact kept phase going
  · obtain ⟨grant,_,rfl⟩ := Multiset.mem_map.mp leased
    cases retires

/-! ### How many turns are left -/

def Start.turnsLeft : Start → Nat
  | begin => 5
  | makeRoot _ => 4
  | makeDirectory _ => 3
  | launch .. => 2
  | discard .. => 1

def Acquire.turnsLeft : Acquire → Nat
  | retrying => 11
  | lookup => 10
  | approaching _ => 9
  | locking .. => 8
  | listing .. => 7
  | listed .. => 6
  | starting _ _ phase => phase.turnsLeft

def Served.turnsLeft : Served → Nat
  | begin => 3
  | locking _ => 2
  | noted _ => 1

def Feedback.turnsLeft : Feedback → Nat
  | lookup => 5
  | locking .. => 4
  | recording .. => 3
  | listing .. => 2
  | listed .. => 1

/-- How many turns a call has left that keeps nobody waiting: binding a lease and cleaning up may wait for a time. -/
def Call.turnsLeft : Call → Nat
  | acquire _ phase => phase.turnsLeft
  | mark _ _ _ phase => phase.turnsLeft
  | report _ _ phase => phase.turnsLeft
  | bind .. | cleanUp _ => 0

theorem Start.turn_nearer (phase : Start) (order : Order) :
    (phase.turn policy order s).Leads (fun _ next => next.turnsLeft < phase.turnsLeft) (fun _ _ => True) := by
  cases phase with
  | begin => exact Nat.lt_succ_self _
  | makeRoot replaced =>
    unfold turn
    dsimp only
    split
    · trivial
    · exact Nat.lt_succ_self _
  | makeDirectory replaced =>
    unfold turn
    dsimp only
    split
    · trivial
    · exact Nat.lt_succ_self _
  | launch replaced run =>
    unfold turn
    dsimp only
    split
    · trivial
    · exact Nat.lt_succ_self _
  | discard replaced run why => trivial

/-- A turn of a request brings it nearer to its end, unless its entry has left the table. -/
theorem Acquire.turn_nearer (phase : Acquire) (demand : Demand) :
    (phase.turn policy clock demand s).Leads (fun _ next => next = .retrying ∨ next.turnsLeft < phase.turnsLeft)
      (fun _ _ => True) := by
  cases phase with
  | lookup => exact .inr (Nat.lt_succ_self _)
  | approaching entry => exact .inr (Nat.lt_succ_self _)
  | locking entry ticket =>
    unfold turn
    dsimp only
    split
    · trivial
    · unfold decide
      split
      · exact .inl rfl
      · split
        · trivial
        · trivial
        · split
          · split
            · exact .inr (Nat.lt_succ_self _)
            · trivial
          · exact .inr (show 5 < 8 by decide)
        · exact .inr (show 5 < 8 by decide)
  | retrying => exact .inr (Nat.lt_succ_self _)
  | listing entry ticket run => exact .inr (Nat.lt_succ_self _)
  | listed entry ticket run holds =>
    unfold turn
    dsimp only
    split
    · trivial
    · exact .inr (Nat.lt_succ_self _)
  | starting entry ticket phase =>
    refine (phase.turn_nearer _).within (fun _ _ nearer => .inr nearer) (fun _ started _ => ?_)
    unfold settle
    split <;> trivial

theorem Served.turn_nearer (phase : Served) (lease : Lease) (index : Nat) (highest : Option Nat) :
    (phase.turn policy lease index highest s).Leads (fun _ next => next.turnsLeft < phase.turnsLeft)
      (fun _ _ => True) := by
  unfold turn
  cases lease.run with
  | none => trivial
  | some run =>
    cases phase with
    | begin => exact Nat.lt_succ_self _
    | locking ticket =>
      dsimp only
      split
      · trivial
      · split
        · exact Nat.lt_succ_self _
        · trivial
    | noted lastServed =>
      dsimp only
      split <;> trivial

theorem Feedback.turn_nearer (phase : Feedback) (id : RunId) (report : Encoder.Report) :
    (phase.turn policy id report s).Leads (fun _ next => next.turnsLeft < phase.turnsLeft) (fun _ _ => True) := by
  unfold turn
  cases phase with
  | lookup =>
    dsimp only
    split
    · trivial
    · exact Nat.lt_succ_self _
  | locking run entry ticket =>
    dsimp only
    split
    · trivial
    · split
      · exact Nat.lt_succ_self _
      · trivial
  | recording run lastServed =>
    dsimp only
    split
    · trivial
    · exact Nat.lt_succ_self _
  | listing run lastServed => exact Nat.lt_succ_self _
  | listed run lastServed available =>
    dsimp only
    split
    · split <;> trivial
    · trivial

/-- A turn of a call that asks for no session and cleans none up brings it nearer to its end. -/
theorem Call.turn_nearer {call : Call} (aside : call.IsAside) :
    (call.turn policy clock s).Leads (fun _ next => next.turnsLeft < call.turnsLeft) (fun _ _ => True) := by
  cases call with
  | mark lease index highest phase =>
    exact Turn.Leads.within (phase.turn_nearer lease index highest) (fun _ _ nearer => nearer) (fun _ _ _ => trivial)
  | report id found phase =>
    exact Turn.Leads.within (phase.turn_nearer id found) (fun _ _ nearer => nearer) (fun _ _ _ => trivial)
  | _ => exact aside.elim

end Playout.Playback
