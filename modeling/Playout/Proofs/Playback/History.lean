import Playout.Proofs.Playback.Ownership

/-!
In every history of the traffic on the table, the table and the calls on it fit
together: every move of a call is made of changes that keep this, and nothing
else touches what the calls share out.
-/
namespace Playout.Playback

namespace State

variable {s : State} {entry ticket : Nat}

theorem nextTicket_eq {lock : Lock} (found : s.skeleton.locks[entry]? = some lock) :
    s.nextTicket entry = lock.next := by
  simp only [skeleton,List.getElem?_map,Option.map_eq_some_iff] at found
  obtain ⟨e,found,rfl⟩ := found
  simp only [nextTicket,found]

theorem head_of_locked {e : Entry} (locked : s.locked? entry ticket = some e) :
    (ticketsAt s.skeleton.locks entry).head? = some ticket := by
  simp only [locked?,Option.filter_eq_some_iff,Lock.isHeldBy,beq_iff_eq] at locked
  obtain ⟨found,head⟩ := locked
  simp [ticketsAt,skeleton,found,head]

theorem isRetired_of_locked {e : Entry} (locked : s.locked? entry ticket = some e) :
    s.skeleton.isRetired entry = e.isRetired := by
  simp only [locked?,Option.filter_eq_some_iff] at locked
  simp [Skeleton.isRetired,skeleton,locked.1]

theorem mem_of_find? {key : Key} (found : s.find? key = some entry) : (key,entry) ∈ s.table := by
  simp only [find?,Option.map_eq_some_iff] at found
  obtain ⟨⟨key',entry'⟩,found,rfl⟩ := found
  have same : key' = key := by simpa using List.find?_some found
  exact same ▸ List.mem_of_find?_eq_some found

theorem not_mem_of_find? {key : Key} (unlisted : s.find? key = none) : key ∉ s.table.map (·.1) := by
  simp only [find?,Option.map_eq_none_iff,List.find?_eq_none] at unlisted
  intro member
  obtain ⟨p,found,rfl⟩ := List.mem_map.mp member
  exact unlisted p found (beq_self_eq_true p.1)

@[simp] theorem skeleton_retire (s : State) (entry : Nat) :
    (s.retire entry).skeleton = s.skeleton.retire entry := by
  let gone (e : Entry) : Entry := { e with isRetired := true, run := none }
  have lock : (s.entries.modify entry gone).map (·.lock) = s.entries.map (·.lock) :=
    map_modify_self (p := fun e : Entry => e.lock) (f := gone) (fun _ => rfl) _ _
  have run : (s.entries.modify entry gone).map (·.run) = (s.entries.map (·.run)).set entry none :=
    map_modify_set (p := fun e : Entry => e.run) (f := gone) (fun _ => rfl) _ _
  have retired : (s.entries.modify entry gone).map (·.isRetired) = (s.entries.map (·.isRetired)).set entry true :=
    map_modify_set (p := fun e : Entry => e.isRetired) (f := gone) (fun _ => rfl) _ _
  simp only [skeleton,retire,onEntry,Skeleton.retire,Skeleton.bind]
  rw [lock,run,retired]

end State

namespace Sound

variable {policy : Policy} {clock : Clock} {s t : State} {g g' : Grip} {rest : Multiset Grip} {makers news : List Key}

/-- Who asks for the lock of an entry that there is. -/
theorem ask_state (sound : Sound s.skeleton makers (g ::ₘ rest)) (idle : g.hold = .free) {entry : Nat}
    (inside : entry < s.skeleton.locks.length) :
    Sound (s.askLock entry).skeleton makers ({ g with hold := .waits entry (s.nextTicket entry) } ::ₘ rest) := by
  have found := List.getElem?_eq_getElem inside
  rw [s.skeleton_askLock,State.nextTicket_eq found]
  exact sound.ask idle found

/-- A key gets an entry, its old one or a new one. -/
theorem enter_state (sound : Sound s.skeleton makers rest) (clock : Clock) (key : Key) :
    Sound (Acquire.enter clock key s).1.skeleton makers rest ∧
      (key,(Acquire.enter clock key s).2) ∈ (Acquire.enter clock key s).1.table := by
  unfold Acquire.enter
  cases found : s.find? key with
  | some entry => exact ⟨sound,State.mem_of_find? found⟩
  | none =>
    refine ⟨?_,by simp⟩
    have enlisted := sound.enlist (State.not_mem_of_find? found)
    simpa [State.skeleton,Skeleton.enlist] using enlisted

/-- Every move of a call keeps the table and the calls on it fitting together. -/
theorem move (sound : Sound s.skeleton makers (g ::ₘ rest)) (move : Move policy clock s g t g' news) :
    Sound t.skeleton (makers ++ news) (g' ::ₘ rest) := by
  cases move with
  | rests same =>
    rw [same,List.append_nil]
    exact sound
  | enters demand =>
    rw [List.append_nil]
    obtain ⟨entered,listed⟩ := sound.enter_state clock demand.key
    exact entered.give rfl listed
  | @asks u _ entry idle known same =>
    have inside : entry < s.skeleton.locks.length := by
      rcases known with given | ⟨run,owned⟩
      · exact sound.head.given _ given
      · exact sound.listed.owners _ owned
    rw [← same] at sound inside
    rw [List.append_nil]
    exact sound.ask_state idle inside
  | takes waits locked listed =>
    rw [List.append_nil]
    exact sound.take waits (State.head_of_locked locked) ((State.isRetired_of_locked locked).trans listed)
  | leaves holds freed =>
    rw [List.append_nil,freed]
    refine sound.leave ?_
    rcases holds with waits | inside
    · rw [waits]; rfl
    · rw [inside]; rfl
  | @unbinds _ entry _ inside empty =>
    rw [List.append_nil,s.skeleton_unbindRun,← s.bound?_skeleton]
    have unbound := sound.unbind inside empty
    cases bound : s.skeleton.bound? entry with
    | none =>
      rw [bound] at unbound
      exact unbound
    | some run =>
      rw [bound] at unbound
      exact unbound.own (fun p member => sound.listed.owners p (List.mem_of_mem_filter member))
  | @makes _ entry _ demand first emptied wants unmade =>
    have made := sound.make wants unmade ((Acquire.order demand entry first).job policy s.runs.length)
    simpa [State.skeleton] using made
  | @binds t _ entry ticket run demand first emptied wants given made launched =>
    rw [List.append_nil]
    have bound := sound.bind emptied wants given made
    have inside : ∀ p ∈ (t.owners.filter (·.1 != run)) ++ [(run,entry)], p.2 < s.skeleton.locks.length := by
      intro p member
      rcases List.mem_append.mp member with old | new
      · have owners : t.owners = s.owners := congrArg Skeleton.owners (s.skeleton_launch launched)
        rw [owners] at old
        exact sound.listed.owners p (List.mem_of_mem_filter old)
      · rw [List.mem_singleton.mp new]
        exact sound.head.given entry given
    have has : (Hold.inside entry ticket).ticket? = some (entry,ticket) := rfl
    have left := (bound.own inside).leave has
    rw [State.skeleton_replace,State.skeleton_unlock,State.skeleton_bindRun,s.skeleton_launch launched]
    exact left.discard_taken
  | refuses made =>
    rw [List.append_nil,s.skeleton_refuse,← made]
    exact sound.discard_fresh
  | @givesUp t _ entry ticket why emptied unmade same =>
    rw [List.append_nil,State.skeleton_letGo,State.skeleton_replace,State.skeleton_unlock,same]
    have has : g.hold.ticket? = some (entry,ticket) := by rw [emptied]; rfl
    exact (sound.leave has).discard_taken
  | lists visits listed =>
    rw [List.append_nil]
    exact sound.list listed
  | @retires _ key entry e idle empty visited found unlocked unheld =>
    rw [List.append_nil,s.skeleton_retire]
    have lock : s.skeleton.locks[entry]? = some e.lock := by simp [State.skeleton,found]
    have bound : s.skeleton.bound? entry = e.run := by rw [s.bound?_skeleton,found]; rfl
    rw [← bound]
    exact sound.retire idle empty visited lock unlocked
  | @unlists _ key entry retired =>
    rw [List.append_nil]
    have left := (sound.unlist retired).discard_taken
    cases taken : g.taken with
    | none =>
      rw [taken] at left
      exact left
    | some run =>
      rw [taken] at left
      rw [State.unlist,State.skeleton_destroyed]
      exact left.own (fun p member => sound.listed.owners p (List.mem_of_mem_filter member))

end Sound

section moves
variable {policy : Policy} {clock : Clock} {s t : State} {g g' : Grip} {news : List Key}

/-- A move makes no run, or one that is ordered for what the call wants. -/
theorem Move.jobs (move : Move policy clock s g t g' news) :
    (news = [] ∧ t.skeleton.jobs = s.skeleton.jobs) ∨
      ∃ demand entry first, g.demand = some demand ∧ news = [demand.key] ∧
        t.skeleton.jobs = s.skeleton.jobs ++ [(Acquire.order demand entry first).job policy s.runs.length] := by
  cases move with
  | rests same => exact .inl ⟨rfl,by rw [same]⟩
  | enters demand =>
    refine .inl ⟨rfl,?_⟩
    simp only [Acquire.enter]
    split <;> rfl
  | asks idle known same =>
    refine .inl ⟨rfl,?_⟩
    rw [State.skeleton_askLock,same]
    rfl
  | leaves holds freed => exact .inl ⟨rfl,by rw [freed]; rfl⟩
  | @unbinds _ entry _ inside empty =>
    refine .inl ⟨rfl,?_⟩
    rw [State.skeleton_unbindRun]
    cases s.skeleton.bound? entry <;> rfl
  | @makes _ entry _ demand first emptied wants unmade =>
    exact .inr ⟨demand,entry,first,wants,rfl,by simp [State.skeleton]⟩
  | binds demand first emptied wants given made launched =>
    refine .inl ⟨rfl,?_⟩
    rw [State.skeleton_replace,State.skeleton_unlock,State.skeleton_bindRun,s.skeleton_launch launched]
    cases g.taken <;> rfl
  | refuses made => exact .inl ⟨rfl,by rw [State.skeleton_refuse]; rfl⟩
  | givesUp why emptied unmade same =>
    refine .inl ⟨rfl,?_⟩
    rw [State.skeleton_letGo,State.skeleton_replace,State.skeleton_unlock,same]
    cases g.taken <;> rfl
  | retires idle empty visited found unlocked unheld => exact .inl ⟨rfl,by rw [State.skeleton_retire]; rfl⟩
  | unlists retired =>
    refine .inl ⟨rfl,?_⟩
    cases g.taken with
    | none => rfl
    | some run => rw [State.unlist,State.skeleton_destroyed]; rfl
  | _ => exact .inl ⟨rfl,rfl⟩

/-- A move does not change what the call wants. -/
theorem Move.demand (move : Move policy clock s g t g' news) : g'.demand = g.demand := by
  cases move <;> rfl

end moves

theorem Call.grip_demand (call : Call) : call.grip.demand = call.demand? := by
  cases call with
  | acquire demand phase =>
    cases phase with
    | starting entry ticket phase => cases phase <;> rfl
    | _ => rfl
  | bind grant phase =>
    simp only [Call.grip,Bind.grip,demand?]
    cases pending : grant.lease.pending with
    | none => exact pending
    | some demand =>
      cases phase with
      | starting ticket first phase => cases phase <;> rfl
      | _ => rfl
  | mark lease index highest phase =>
    simp only [Call.grip,Served.grip,demand?]
    cases lease.run with
    | none => rfl
    | some run => cases phase <;> rfl
  | report id found phase => cases phase <;> rfl
  | cleanUp phase => cases phase <;> rfl

/-- A lease that begins to be bound has in its hands what it had. -/
theorem Call.grip_bind_begin (grant : Grant) : Call.grip (.bind grant .begin) = grant.lease.grip := by
  simp only [Call.grip,Bind.grip]
  cases pending : grant.lease.pending with
  | none => rfl
  | some demand => simp [Bind.gripOf,Grip.of,Lease.grip,pending]

namespace Traffic

variable {policy : Policy} {conduct : Conduct} {w w' : Traffic}

/-- What the calls on the table and the leases that are out have in their hands. -/
def grips (w : Traffic) : Multiset Grip := w.calls.map Call.grip + w.grants.map (·.lease.grip)

/-- The table and the calls on it fit together. -/
def IsSound (w : Traffic) : Prop := Sound w.state.skeleton w.makers w.grips

/-- A move of a call adds the sessions of the runs that it makes to those that are known. -/
theorem makersAfter_eq {call : Call} {t : State} {h : Grip} {clock : Clock} {news : List Key}
    (move : Move policy clock w.state call.grip t h news) : w.makersAfter call t = w.makers ++ news := by
  have counted : t.runs.length = t.skeleton.jobs.length := by simp [State.skeleton]
  have before : w.state.runs.length = w.state.skeleton.jobs.length := by simp [State.skeleton]
  rw [makersAfter,← call.grip_demand,counted,before]
  rcases move.jobs with ⟨none,same⟩ | ⟨demand,entry,first,wants,one,more⟩
  · rw [none,same,Nat.sub_self]
    cases call.grip.demand <;> rfl
  · rw [one,more,wants,List.length_append,List.length_singleton,Nat.add_sub_cancel_left]
    rfl

/-- What a step does to the skeleton of the table and to what the calls have in their hands. -/
inductive Change (policy : Policy) (conduct : Conduct) (w w' : Traffic) : Prop
  /-- Nothing becomes of them. -/
  | keeps (skeleton : w'.state.skeleton = w.state.skeleton) (makers : w'.makers = w.makers)
      (grips : w'.grips = w.grips)
  /-- A call begins. -/
  | joins {g : Grip} (skeleton : w'.state.skeleton = w.state.skeleton) (makers : w'.makers = w.makers)
      (grips : w'.grips = g ::ₘ w.grips) (idle : g.IsIdle) (visits : g.visits = [])
      (wants : ∀ d, g.demand = some d → conduct.asks d ∧ g.entry = none)
      (given : ∀ entry, g.entry = some entry → ∃ h ∈ w.grips, h.entry = some entry)
  /-- A lease is given back. -/
  | parts {g : Grip} (skeleton : w'.state.skeleton = w.state.skeleton) (makers : w'.makers = w.makers)
      (grips : w.grips = g ::ₘ w'.grips) (idle : g.IsIdle)
  /-- A call makes a move, and may have come to its end. -/
  | moves {g h g' : Grip} {rest : Multiset Grip} {news : List Key} (before : w.grips = g ::ₘ rest)
      (move : Move policy w.clock w.state g w'.state h news) (covers : h.Covers g')
      (after : w'.grips = g' ::ₘ rest ∨ (g'.IsIdle ∧ w'.grips = rest)) (makers : w'.makers = w.makers ++ news)

theorem lease_idle (lease : Lease) : lease.grip.IsIdle := ⟨rfl,rfl,rfl⟩

/-- Every step is one of few changes, unless it is a turn of a task that changes the skeleton. -/
theorem Step.change_of_still (step : Step policy conduct w w')
    (still : ∀ number, w.state.taskTurn? w.clock number = some w'.state → w'.state.skeleton = w.state.skeleton) :
    Change policy conduct w w' := by
  cases step with
  | ask demand asked =>
    refine .joins (g := { demand := some demand }) rfl rfl ?_ ⟨rfl,rfl,rfl⟩ rfl ?_ ?_
    · simp only [grips,Multiset.map_cons,Multiset.cons_add]
      rfl
    · intro d wants
      cases wants
      exact ⟨asked,rfl⟩
    · intro _ given
      cases given
  | bind grant grants held =>
    refine .keeps rfl rfl ?_
    simp only [grips,held,Multiset.map_cons,Multiset.cons_add,Multiset.add_cons,Call.grip_bind_begin]
  | drop grant grants held =>
    refine .parts (State.skeleton_letGo ..) rfl ?_ (lease_idle grant.lease)
    simp only [grips,held,Multiset.map_cons,Multiset.add_cons]
  | mark grant held index highest marked =>
    have same : Call.grip (.mark grant.lease index highest .begin) = { entry := some grant.lease.entry } := by
      simp only [Call.grip,Served.grip]
      cases grant.lease.run <;> rfl
    refine .joins (g := { entry := some grant.lease.entry }) rfl rfl ?_ ⟨rfl,rfl,rfl⟩ rfl ?_ ?_
    · simp only [grips,Multiset.map_cons,Multiset.cons_add,same]
    · intro _ wants
      cases wants
    · intro entry given
      refine ⟨grant.lease.grip,?_,given⟩
      exact Multiset.mem_add.mpr (.inr (Multiset.mem_map_of_mem (fun g : Grant => g.lease.grip) held))
  | report run report =>
    refine .joins (g := {}) rfl rfl ?_ ⟨rfl,rfl,rfl⟩ rfl (fun _ wants => by cases wants) (fun _ given => by cases given)
    simp only [grips,Multiset.map_cons,Multiset.cons_add]
    rfl
  | cleanUp =>
    refine .joins (g := {}) rfl rfl ?_ ⟨rfl,rfl,rfl⟩ rfl (fun _ wants => by cases wants) (fun _ given => by cases given)
    simp only [grips,Multiset.map_cons,Multiset.cons_add]
    rfl
  | goesOn call calls going turned =>
    have effect := @Call.turn_effect policy w.clock w.state call
    rw [turned] at effect
    obtain ⟨move,covers⟩ := effect
    have before : w.grips = call.grip ::ₘ (calls.map Call.grip + w.grants.map (·.lease.grip)) := by
      simp only [grips,going,Multiset.map_cons,Multiset.cons_add]
    refine .moves before move covers (.inl ?_) (makersAfter_eq move)
    simp only [grips,Multiset.map_cons,Multiset.cons_add]
  | @ends call calls going s given turned =>
    have effect := @Call.turn_effect policy w.clock w.state call
    rw [turned] at effect
    obtain ⟨move,covers⟩ := effect
    have before : w.grips = call.grip ::ₘ (calls.map Call.grip + w.grants.map (·.lease.grip)) := by
      simp only [grips,going,Multiset.map_cons,Multiset.cons_add]
    refine .moves before move covers ?_ (makersAfter_eq move)
    cases given with
    | none =>
      refine .inr ⟨⟨rfl,rfl,rfl⟩,?_⟩
      simp [grips]
    | some grant =>
      refine .inl ?_
      simp only [grips,Option.elim,Multiset.singleton_add,Multiset.map_cons,Multiset.add_cons]
      rfl
  | task number turned => exact .keeps (still number turned) rfl rfl
  | happen event => exact .keeps (w.state.skeleton_event event) rfl rfl
  | wait clock millis nanos => exact .keeps rfl rfl rfl

/-- Every step is one of few changes, unless the table is shut down. -/
theorem Step.change (step : Step policy conduct w w') (working : w.state.skeleton.isShuttingDown = false) :
    Change policy conduct w w' :=
  step.change_of_still fun _ turned => w.state.skeleton_taskTurn working turned

/-- What has just come to the table fits it. -/
theorem fits_new {k : Skeleton} {makers : List Key} {g : Grip} (idle : g.IsIdle) (visits : g.visits = [])
    (wants : ∀ d, g.demand = some d → g.entry = none)
    (given : ∀ entry, g.entry = some entry → entry < k.locks.length) : Fits k makers g where
  given := given
  known d entry wanted given := by
    rw [wants d wanted] at given
    cases given
  entered _ _ entered := by
    rw [idle.hold] at entered
    cases entered
  emptied _ _ at_entry := by
    rw [idle.hold] at at_entry
    cases at_entry
  retires _ _ leaves := by
    rw [idle.hold] at leaves
    cases leaves
  visits p member := by
    rw [visits] at member
    cases member
  fresh _ _ made := by
    rw [idle.fresh] at made
    cases made

/-- Every change keeps the table and the calls on it fitting together, also with what others have in their hands. -/
theorem Change.sound (change : Change policy conduct w w') {others : Multiset Grip}
    (sound : Sound w.state.skeleton w.makers (w.grips + others)) :
    Sound w'.state.skeleton w'.makers (w'.grips + others) := by
  cases change with
  | keeps skeleton makers grips =>
    rw [skeleton,makers,grips]
    exact sound
  | joins skeleton makers grips idle visits wants given =>
    rw [skeleton,makers,grips,Multiset.cons_add]
    refine sound.join idle (fits_new idle visits (fun d wanted => (wants d wanted).2) ?_)
    intro entry at_entry
    obtain ⟨h,member,given⟩ := given entry at_entry
    exact (sound.fits h (Multiset.mem_add.mpr (.inl member))).given entry given
  | parts skeleton makers grips idle =>
    rw [grips,Multiset.cons_add] at sound
    rw [skeleton,makers]
    exact sound.part idle
  | moves before move covers after makers =>
    rw [before,Multiset.cons_add] at sound
    have moved := (sound.move move).ease covers
    rw [makers]
    rcases after with on | ⟨idle,done⟩
    · rw [on,Multiset.cons_add]
      exact moved
    · rw [done]
      exact moved.part idle

/-- Every step keeps the table and the calls on it fitting together. -/
theorem sound_step (sound : w.IsSound) (step : Step policy conduct w w') : w'.IsSound := by
  have change := step.change sound.listed.working
  have alone : Sound w.state.skeleton w.makers (w.grips + 0) := by
    rw [Multiset.add_zero]
    exact sound
  have after := change.sound alone
  rw [Multiset.add_zero] at after
  exact after

/-- In every history the table and the calls on it fit together. -/
theorem sound_of_reachable (reached : w.Reachable policy conduct) : w.IsSound := by
  induction reached with
  | refl => simpa [IsSound,grips] using Sound.empty
  | tail _ step ih => exact sound_step ih step

end Traffic
end Playout.Playback
