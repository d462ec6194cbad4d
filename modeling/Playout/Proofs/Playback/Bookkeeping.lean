import Playout.Proofs.Playback.IdleCleanup
import Playout.Proofs.Playback.Notes

/-!
The books of the table. What an entry notes of its player is in the range of the run
that is bound, nothing counts as served that was not asked for, and while a run is
bound nothing is taken back. The owners of runs are the entries that bind them, save
that a retired entry owns its run until it leaves the table (`Filed`).
-/
namespace Playout.Playback

variable {policy : Policy} {clock : Clock} {s t : State} {g h g' : Grip} {rest grips : Multiset Grip} {makers news : List Key}

/-! ### The owners of runs -/

/-- The owner of a run is the entry that binds it, or one that is retired and about to leave the table. -/
structure Filed (k : Skeleton) (grips : Multiset Grip) : Prop where
  nodup : (k.owners.map (·.1)).Nodup
  bound : ∀ entry run, k.bound? entry = some run → (run,entry) ∈ k.owners
  owned : ∀ run entry, (run,entry) ∈ k.owners → k.bound? entry = some run ∨
    ∃ g ∈ grips, ∃ key, g.hold = .retires key entry ∧ g.taken = some run

namespace Filed

variable {k k' : Skeleton} {entry ticket run : Nat}

theorem empty : Filed (State.skeleton {}) 0 := by
  constructor <;> simp [State.skeleton,Skeleton.bound?]

/-- Owners and bindings stay, and so does who is about to take an entry out of the table. -/
theorem keep (filed : Filed k (g ::ₘ rest)) (owners : k'.owners = k.owners) (bound : ∀ entry, k'.bound? entry = k.bound? entry)
    (stays : ∀ key entry, g.hold = .retires key entry →
      h.hold = .retires key entry ∧ h.taken = g.taken ∨ g.taken = none) : Filed k' (h ::ₘ rest) where
  nodup := by
    rw [owners]
    exact filed.nodup
  bound entry run at_entry := by
    rw [owners]
    exact filed.bound entry run ((bound entry).symm.trans at_entry)
  owned run entry member := by
    rw [bound]
    rw [owners] at member
    refine (filed.owned run entry member).imp_right ?_
    rintro ⟨g',among,key,leaves,taken⟩
    rcases Multiset.mem_cons.mp among with rfl | other
    · rcases stays key entry leaves with ⟨leaves',taken'⟩ | untaken
      · exact ⟨h,Multiset.mem_cons_self h rest,key,leaves',taken'.trans taken⟩
      · cases untaken.symm.trans taken
    · exact ⟨g',Multiset.mem_cons_of_mem other,key,leaves,taken⟩

theorem join (filed : Filed k grips) : Filed k (g ::ₘ grips) where
  nodup := filed.nodup
  bound := filed.bound
  owned run entry member := (filed.owned run entry member).imp_right
    fun ⟨g',among,leaves⟩ => ⟨g',Multiset.mem_cons_of_mem among,leaves⟩

theorem part (filed : Filed k (g ::ₘ grips)) (idle : g.IsIdle) : Filed k grips where
  nodup := filed.nodup
  bound := filed.bound
  owned run entry member := by
    refine (filed.owned run entry member).imp_right ?_
    rintro ⟨g',among,key,leaves,taken⟩
    rcases Multiset.mem_cons.mp among with rfl | other
    · rw [idle.hold] at leaves
      cases leaves
    · exact ⟨g',other,key,leaves,taken⟩

/-- A run that is bound no more has no owner any more. -/
theorem disown (filed : Filed k (g ::ₘ rest)) (run : Nat) (elsewhere : ∀ other, k'.bound? other = some run → False)
    (owners : k'.owners = k.owners.filter (·.1 != run))
    (bound : ∀ other run', run' ≠ run → (k'.bound? other = some run' ↔ k.bound? other = some run'))
    (stays : ∀ key entry, g.hold = .retires key entry → g.taken = some run) : Filed k' (h ::ₘ rest) where
  nodup := by
    rw [owners]
    exact (List.filter_sublist.map _).nodup filed.nodup
  bound other run' at_other := by
    have differs : run' ≠ run := by
      rintro rfl
      exact elsewhere other at_other
    rw [owners]
    exact List.mem_filter.mpr ⟨filed.bound other run' ((bound other run' differs).mp at_other),by simpa using differs⟩
  owned run' other member := by
    rw [owners] at member
    obtain ⟨member,differs⟩ := List.mem_filter.mp member
    have differs : run' ≠ run := by simpa using differs
    rcases filed.owned run' other member with before | ⟨g',among,key,leaves,taken⟩
    · exact .inl ((bound other run' differs).mpr before)
    · rcases Multiset.mem_cons.mp among with rfl | others
      · exact absurd (Option.some.inj (taken.symm.trans (stays key other leaves))) differs
      · exact .inr ⟨g',Multiset.mem_cons_of_mem others,key,leaves,taken⟩

/-- The run of an entry comes into the hands of the call that is inside. -/
theorem unbind (filed : Filed k (g ::ₘ rest)) (sound : Sound k makers (g ::ₘ rest)) (inside : g.hold = .inside entry ticket) :
    Filed ((k.bind entry none).disown (k.bound? entry)) (h ::ₘ rest) := by
  have out : ∀ key entry, g.hold ≠ .retires key entry := by
    intro _ _ leaves
    rw [inside] at leaves
    cases leaves
  cases at_entry : k.bound? entry with
  | none =>
    refine filed.keep rfl ?_ (fun key entry leaves => absurd leaves (out key entry))
    intro other
    refine (k.bound?_bind_none entry other).trans ?_
    split
    · rename_i same
      rw [← same,at_entry]
    · rfl
  | some run =>
    have only := BoundOnly.of_bound sound at_entry
    have unbound (other : Nat) : Skeleton.bound? ((k.bind entry none).disown (some run)) other =
      if entry = other then none else k.bound? other := k.bound?_bind_none entry other
    refine filed.disown run ?_ rfl ?_ (fun key entry leaves => absurd leaves (out key entry))
    · intro other at_other
      rw [unbound] at at_other
      split at at_other
      · cases at_other
      · rename_i differs
        exact differs (only.bound other at_other).symm
    · intro other run' differs
      rw [unbound]
      split
      · rename_i same
        rw [← same,at_entry]
        simp [Ne.symm differs]
      · rfl

/-- A call binds the run that it has made to the entry that it has emptied. -/
theorem bind (filed : Filed k (g ::ₘ rest)) (sound : Sound k makers (g ::ₘ rest))
    (emptied : g.hold = .emptied entry ticket) (made : g.fresh = some run) (inside : entry < k.bindings.length)
    (owners : k'.owners = (k.owners.filter (·.1 != run)) ++ [(run,entry)])
    (bindings : k'.bindings = (k.bind entry (some run)).bindings) : Filed k' (h ::ₘ rest) := by
  have empty : k.bound? entry = none := sound.head.emptied entry ticket emptied
  have bound (other : Nat) : k'.bound? other = if entry = other then some run else k.bound? other := by
    rw [Skeleton.bound?,bindings]
    exact Skeleton.bound?_bind_some inside run other
  have fresh : ∀ other, k.bound? other ≠ some run := fun other at_other =>
    (BoundOnly.of_bound sound at_other).known g (Multiset.mem_cons_self g rest) made
  constructor
  · have kept : ((k.owners.filter (·.1 != run)).map (·.1)).Nodup := (List.filter_sublist.map _).nodup filed.nodup
    rw [owners,List.map_append]
    refine kept.append (List.nodup_singleton run) (List.disjoint_singleton.mpr ?_)
    simp
  · intro other run' at_other
    rw [bound] at at_other
    rw [owners]
    split at at_other
    · rename_i same
      cases at_other
      exact List.mem_append_right _ (by simp [same])
    · have differs : run' ≠ run := by
        rintro rfl
        exact fresh other at_other
      exact List.mem_append_left _ (List.mem_filter.mpr ⟨filed.bound other run' at_other,by simpa using differs⟩)
  · intro run' other member
    rw [owners] at member
    rw [bound]
    rcases List.mem_append.mp member with old | new
    · rcases filed.owned run' other (List.mem_of_mem_filter old) with before | ⟨g',among,key,leaves,taken⟩
      · have differs : entry ≠ other := by
          rintro rfl
          rw [empty] at before
          cases before
        exact .inl (by rw [if_neg differs]; exact before)
      · rcases Multiset.mem_cons.mp among with rfl | others
        · rw [emptied] at leaves
          cases leaves
        · exact .inr ⟨g',Multiset.mem_cons_of_mem others,key,leaves,taken⟩
    · cases List.mem_singleton.mp new
      exact .inl (if_pos rfl)

/-- A call retires an entry, and is going to take it out of the table. -/
theorem retire (filed : Filed k (g ::ₘ rest)) (idle : g.hold = .free) {key : Key} :
    Filed (k.retire entry) ({ g with hold := .retires key entry, taken := k.bound? entry } ::ₘ rest) where
  nodup := filed.nodup
  bound other run' at_other := by
    have at_other : (k.bind entry none).bound? other = some run' := at_other
    rw [k.bound?_bind_none] at at_other
    split at at_other
    · cases at_other
    · exact filed.bound other run' at_other
  owned run' other member := by
    rcases filed.owned run' other member with before | ⟨g',among,key',leaves,taken⟩
    · by_cases same : entry = other
      · subst same
        exact .inr ⟨_,Multiset.mem_cons_self _ _,key,rfl,before⟩
      · exact .inl (((k.bound?_bind_none entry other).trans (if_neg same)).trans before)
    · rcases Multiset.mem_cons.mp among with rfl | others
      · rw [idle] at leaves
        cases leaves
      · exact .inr ⟨g',Multiset.mem_cons_of_mem others,key',leaves,taken⟩

theorem ease (filed : Filed k (g ::ₘ rest)) (covers : g.Covers h) : Filed k (h ::ₘ rest) :=
  filed.keep rfl (fun _ => rfl) (fun _ _ leaves => .inl ⟨covers.hold.trans leaves,covers.taken⟩)

/-- Every move of a call keeps the owners of runs. -/
theorem move (filed : Filed s.skeleton (g ::ₘ rest)) (sound : Sound s.skeleton makers (g ::ₘ rest))
    (move : Move policy clock s g t h news) : Filed t.skeleton (h ::ₘ rest) := by
  cases move with
  | rests same =>
    rw [same]
    exact filed
  | enters demand =>
    rcases Acquire.skeleton_enter s clock demand.key with same | new
    · rw [same]
      exact filed.keep rfl (fun _ => rfl) (fun _ _ leaves => by cases leaves)
    · rw [new]
      exact filed.keep rfl (s.skeleton.bound?_enlist demand.key) (fun _ _ leaves => by cases leaves)
  | asks idle known same =>
    rw [State.skeleton_askLock,same]
    exact filed.keep rfl (fun _ => rfl) (fun _ _ leaves => by rw [idle] at leaves; cases leaves)
  | takes waits locked listed =>
    exact filed.keep rfl (fun _ => rfl) (fun _ _ leaves => by rw [waits] at leaves; cases leaves)
  | leaves holds freed =>
    rw [freed]
    refine filed.keep rfl (fun _ => rfl) (fun _ _ leaves => ?_)
    rcases holds with waits | inside
    · rw [waits] at leaves
      cases leaves
    · rw [inside] at leaves
      cases leaves
  | unbinds inside empty =>
    rw [s.skeleton_unbindRun]
    exact filed.unbind sound inside
  | makes demand first emptied wants unmade =>
    exact filed.keep rfl (fun _ => rfl) (fun _ _ leaves => by rw [emptied] at leaves; cases leaves)
  | @binds u _ entry ticket run demand first emptied wants given made launched =>
    have inside : entry < s.skeleton.bindings.length := sound.listed.bindings ▸ sound.head.given entry given
    have owners : s.skeleton.owners = u.owners := congrArg Skeleton.owners (s.skeleton_launch launched).symm
    rw [State.skeleton_replace,State.skeleton_unlock,State.skeleton_bindRun,s.skeleton_launch launched]
    refine filed.bind sound emptied made inside ?_ ?_
    · rw [owners]
      cases g.taken <;> rfl
    · cases g.taken <;> rfl
  | refuses made =>
    rw [State.skeleton_refuse]
    exact filed.keep rfl (fun _ => rfl) (fun _ _ leaves => .inl ⟨leaves,rfl⟩)
  | givesUp why emptied unmade same =>
    rw [State.skeleton_letGo,State.skeleton_replace,State.skeleton_unlock,same]
    have stays : ∀ key entry, g.hold ≠ .retires key entry := by
      intro _ _ leaves
      rw [emptied] at leaves
      cases leaves
    cases g.taken <;> exact filed.keep rfl (fun _ => rfl) (fun key entry leaves => absurd leaves (stays key entry))
  | lists visits listed => exact filed.keep rfl (fun _ => rfl) (fun _ _ leaves => .inl ⟨leaves,rfl⟩)
  | @retires _ key entry e idle empty visited found unlocked unheld =>
    have bound : s.skeleton.bound? entry = e.run := by rw [s.bound?_skeleton,found]; rfl
    rw [s.skeleton_retire,← bound]
    exact filed.retire idle
  | @unlists _ key entry retired =>
    cases taken : g.taken with
    | none =>
      exact filed.keep (g := g) rfl (fun _ => rfl) (fun _ _ _ => .inr taken)
    | some run =>
      have nowhere := BoundOnly.of_taken sound (Multiset.mem_cons_self g rest) taken
      rw [State.unlist,State.skeleton_destroyed]
      exact filed.disown run nowhere.bound rfl (fun _ _ _ => Iff.rfl) (fun _ _ _ => taken)

end Filed

theorem Move.jobs_grow (move : Move policy clock s g t h news) : s.skeleton.jobs <+: t.skeleton.jobs := by
  rcases move.jobs with ⟨_,same⟩ | ⟨_,_,_,_,_,more⟩
  · exact same ▸ List.prefix_refl _
  · exact more ▸ List.prefix_append _ _

/-! ### Histories -/

namespace Traffic

variable {conduct : Conduct} {w w' : Traffic}

def IsFiled (w : Traffic) : Prop := Filed w.state.skeleton w.grips

theorem filed_step (sound : w.IsSound) (filed : w.IsFiled) (step : Step policy conduct w w') : w'.IsFiled := by
  unfold IsFiled at filed ⊢
  cases step.change sound.listed.working with
  | keeps skeleton makers grips =>
    rw [skeleton,grips]
    exact filed
  | joins skeleton makers grips idle visits wants given =>
    rw [skeleton,grips]
    exact filed.join
  | parts skeleton makers grips idle =>
    rw [skeleton]
    rw [grips] at filed
    exact filed.part idle
  | moves before move covers after makers =>
    unfold IsSound at sound
    rw [before] at sound filed
    have moved := (filed.move sound move).ease covers
    rcases after with on | ⟨idle,done⟩
    · rw [on]
      exact moved
    · rw [done]
      exact moved.part idle

theorem filed_of_reachable (reached : w.Reachable policy conduct) : w.IsFiled := by
  induction reached with
  | refl => simpa [IsFiled,grips] using Filed.empty
  | tail before step ih => exact filed_step (sound_of_reachable before) ih step

/-- The notes are true, and so is what the calls know. -/
structure IsNoted (policy : Policy) (w : Traffic) : Prop where
  agrees : ∀ entry, (w.state.noteAt entry).Agrees w.state.skeleton.jobs
  calls : ∀ call ∈ w.calls, call.Knows policy w.state
  grants : ∀ g ∈ w.grants, g.Knows w.state.skeleton.jobs

/-- The notes go on, and are true again. -/
structure Noting (policy : Policy) (w w' : Traffic) : Prop where
  goes : ∀ entry, (w.state.noteAt entry).Goes w'.state.skeleton.jobs (w'.state.noteAt entry)
  noted : w'.IsNoted policy

/-- Nothing is written, and who comes knows what he needs to know. -/
theorem IsNoted.quiet (noted : w.IsNoted policy) (notes : ∀ entry, w'.state.noteAt entry = w.state.noteAt entry)
    (jobs : w'.state.skeleton.jobs = w.state.skeleton.jobs)
    (calls : ∀ call ∈ w'.calls, call ∈ w.calls ∨ call.Knows policy w.state) (grants : w'.grants ≤ w.grants) :
    Noting policy w w' where
  goes entry := by
    rw [notes]
    exact .stays
  noted := {
    agrees := fun entry => by
      rw [notes,jobs]
      exact noted.agrees entry
    calls := fun call member => by
      have knows : call.Knows policy w.state := (calls call member).elim (noted.calls call) id
      exact knows.keep (jobs ▸ List.prefix_refl _) (fun entry _ _ => notes entry)
    grants := fun g member => by
      rw [jobs]
      exact noted.grants g (Multiset.mem_of_le grants member) }

/-- A call has taken a turn. -/
theorem IsNoted.turn (noted : w.IsNoted policy) (sound : w.IsSound) {call : Call} {calls : Multiset Call}
    (going : w.calls = call ::ₘ calls) (grows : w.state.skeleton.jobs <+: w'.state.skeleton.jobs)
    (writes : Writes w.state call.grip.hold w'.state)
    (after : ∀ c ∈ w'.calls, c ∈ calls ∨ c.Knows policy w'.state)
    (given : ∀ g ∈ w'.grants, g ∈ w.grants ∨ g.Knows w'.state.skeleton.jobs) : Noting policy w w' where
  goes := writes.goes
  noted := {
    agrees := fun entry => (writes.goes entry).agrees ((noted.agrees entry).grow grows)
    calls := fun c member => by
      rcases after c member with other | knows
      · refine (noted.calls c (going ▸ Multiset.mem_cons_of_mem other)).keep grows ?_
        intro entry ticket entered
        refine (writes.apart entry).resolve_right fun turn => ?_
        have queued := sound.queued
        simp only [grips,going,Multiset.map_cons,Multiset.cons_add] at queued
        refine queued.not_entered turn ?_ entered
        exact Multiset.mem_map_of_mem _ (Multiset.mem_add.mpr (.inl (Multiset.mem_map_of_mem _ other)))
      · exact knows
    grants := fun g member => (given g member).elim (fun old => (noted.grants g old).grow grows) id }

/-- A call that is on the table fits it, is at the head of the queue where it is inside, and asks for what there is. -/
theorem turn_writes_of_going (sound : w.IsSound) (orders : w.IsOrdered policy .inRange) (noted : w.IsNoted policy)
    (copies : 1 ≤ policy.maxCopySegments) {call : Call} (going : call ∈ w.calls) :
    (call.turn policy w.clock w.state).Leads
      (fun t next => (Writes w.state call.grip.hold t ∧ next.Knows policy t) ∧ w.state.skeleton.jobs <+: t.skeleton.jobs)
      (fun t given => (Writes w.state call.grip.hold t ∧ ∀ g, given = some g → g.Knows t.skeleton.jobs) ∧
        w.state.skeleton.jobs <+: t.skeleton.jobs) := by
  have member : call.grip ∈ w.grips := Multiset.mem_add.mpr (.inl (Multiset.mem_map_of_mem Call.grip going))
  have effect := @Call.turn_effect policy w.clock w.state call
  have writes : (call.turn policy w.clock w.state).Leads _ _ := call.turn_writes (sound.fits _ member)
    (fun entry ticket => sound.queued.heads _ (Multiset.mem_map_of_mem _ member) entry ticket)
    (fun demand wants => orders.asked _ member demand (call.grip_demand.trans wants)) copies (noted.calls call going)
  cases turned : call.turn policy w.clock w.state with
  | blocked wake => trivial
  | goesOn t next =>
    rw [turned] at effect writes
    obtain ⟨move,_⟩ := effect
    exact ⟨writes,move.jobs_grow⟩
  | ends t given =>
    rw [turned] at effect writes
    obtain ⟨move,_⟩ := effect
    exact ⟨writes,move.jobs_grow⟩

theorem noting_step (sound : w.IsSound) (orders : w.IsOrdered policy .inRange) (noted : w.IsNoted policy)
    (copies : 1 ≤ policy.maxCopySegments) (step : Step policy .inRange w w') : Noting policy w w' := by
  have joins {call : Call} (knows : call.Knows policy w.state) :
      ∀ c ∈ call ::ₘ w.calls, c ∈ w.calls ∨ c.Knows policy w.state :=
    Multiset.forall_mem_cons.mpr ⟨.inr knows,fun _ old => .inl old⟩
  cases step with
  | ask demand asked => exact noted.quiet (fun _ => rfl) rfl (joins trivial) le_rfl
  | bind grant grants held =>
    have known := noted.grants grant (held ▸ Multiset.mem_cons_self grant grants)
    exact noted.quiet (fun _ => rfl) rfl (joins ⟨known,trivial⟩) (held ▸ Multiset.le_cons_self grants grant)
  | drop grant grants held =>
    exact noted.quiet (w.state.noteAt_letGo w.clock grant.lease.entry)
      (congrArg Skeleton.jobs (w.state.skeleton_letGo w.clock grant.lease.entry)) (fun _ old => .inl old)
      (held ▸ Multiset.le_cons_self grants grant)
  | mark grant held index highest marked =>
    exact noted.quiet (fun _ => rfl) rfl (joins (noted.grants grant held index marked).2) le_rfl
  | report run report => exact noted.quiet (fun _ => rfl) rfl (joins trivial) le_rfl
  | cleanUp => exact noted.quiet (fun _ => rfl) rfl (joins trivial) le_rfl
  | goesOn call calls going turned =>
    have writes := turn_writes_of_going sound orders noted copies (going ▸ Multiset.mem_cons_self call calls)
    rw [turned] at writes
    obtain ⟨⟨writes,knows⟩,grows⟩ := writes
    exact noted.turn sound going grows writes
      (Multiset.forall_mem_cons.mpr ⟨.inr knows,fun _ other => .inl other⟩) (fun _ old => .inl old)
  | @ends call calls going s given turned =>
    have writes := turn_writes_of_going sound orders noted copies (going ▸ Multiset.mem_cons_self call calls)
    rw [turned] at writes
    obtain ⟨⟨writes,knows⟩,grows⟩ := writes
    refine noted.turn sound going grows writes (fun _ other => .inl other) ?_
    intro g member
    rcases Multiset.mem_add.mp member with new | old
    · cases given with
      | none => cases new
      | some grant => exact .inr (knows g (congrArg some (Multiset.mem_singleton.mp new).symm))
    · exact .inl old
  | task number turned =>
    have working := sound.listed.working
    exact noted.quiet (State.noteAt_of_entries (w.state.beside_taskTurn working turned).entries)
      (congrArg Skeleton.jobs (w.state.skeleton_taskTurn working turned)) (fun _ old => .inl old) le_rfl
  | happen event =>
    exact noted.quiet (State.noteAt_of_entries (w.state.beside_event event).entries)
      (congrArg Skeleton.jobs (w.state.skeleton_event event)) (fun _ old => .inl old) le_rfl
  | wait clock millis nanos => exact noted.quiet (fun _ => rfl) rfl (fun _ old => .inl old) le_rfl

theorem noted_of_reachable (copies : 1 ≤ policy.maxCopySegments) (reached : w.Reachable policy .inRange) :
    w.IsNoted policy := by
  induction reached with
  | refl =>
    constructor
    · intro entry run bound
      cases bound
    · intro call member
      cases member
    · intro g member
      cases member
  | tail before step ih =>
    exact (noting_step (sound_of_reachable before) (ordered_of_reachable before) ih copies step).noted

/-- Wherever a run may be bound, no step makes it bound elsewhere. -/
theorem boundOnly_step (sound : w.IsSound) (step : Step policy conduct w w') {run : Nat} {places : Nat → Prop}
    (only : BoundOnly w.state.skeleton w.grips run places) : BoundOnly w'.state.skeleton w'.grips run places := by
  cases step.change sound.listed.working with
  | keeps skeleton makers grips =>
    rw [skeleton,grips]
    exact only
  | joins skeleton makers grips idle visits wants given =>
    rw [skeleton,grips]
    exact only.join idle.fresh
  | parts skeleton makers grips idle =>
    rw [skeleton]
    rw [grips] at only
    exact only.part
  | moves before move covers after makers =>
    rw [before] at only
    have binds := move.bindings
    have moved := only.move ⟨binds.made,fun run made => binds.fresh run (covers.fresh ▸ made),binds.bound⟩
    rcases after with on | ⟨_,done⟩
    · rw [on]
      exact moved
    · rw [done]
      exact moved.part

/-- A run that is bound to an entry stays bound there, and what is noted of it goes on, or it is bound nowhere ever
    after. -/
theorem notes_go_on (copies : 1 ≤ policy.maxCopySegments) (reached : w.Reachable policy .inRange)
    (later : Relation.ReflTransGen (Step policy .inRange) w w') {entry run : Nat}
    (bound : w.state.skeleton.bound? entry = some run) :
    (w'.state.skeleton.bound? entry = some run ∧ (w.state.noteAt entry).Before (w'.state.noteAt entry)) ∨
      BoundOnly w'.state.skeleton w'.grips run fun _ => False := by
  induction later with
  | refl => exact .inl ⟨bound,.refl _⟩
  | @tail u v path step ih =>
    have before : u.Reachable policy .inRange := reached.trans path
    have sound := sound_of_reachable before
    rcases ih with ⟨still,onward⟩ | gone
    · have only := boundOnly_step sound step (.of_bound sound still)
      by_cases bound' : v.state.skeleton.bound? entry = some run
      · have goes := (noting_step sound (ordered_of_reachable before) (noted_of_reachable copies before) copies step).goes entry
        have next := goes.before ((u.state.run_noteAt entry).trans still) ((v.state.run_noteAt entry).trans bound')
        exact .inl ⟨bound',onward.trans next⟩
      · exact .inr { only with bound := fun other at_other => bound' (only.bound other at_other ▸ at_other) }
    · exact .inr (boundOnly_step sound step gone)

/-- The books of the table in every history of players that ask for what there is. What an entry notes is in the range
    of the run that is bound there, and no more was served than was asked for; a run is bound to one entry only, and
    what was asked for and what was served are not taken back while it is bound; and when no call is on the table, the
    owners are exactly the runs that are bound, each with its entry. -/
theorem books_are_in_order (copies : 1 ≤ policy.maxCopySegments) (reached : w.Reachable policy .inRange) :
    (∀ (entry : Nat) (e : Entry) (run : Nat), w.state.entries[entry]? = some e → e.run = some run →
      ∃ r, w.state.runs[run]? = some r ∧ (r.job.first ≤ e.lastRequested ∧ e.lastRequested < r.job.last) ∧
      ∀ index, e.lastServed = some index → r.job.first ≤ index ∧ index ≤ e.lastRequested) ∧
    (∀ w', Relation.ReflTransGen (Step policy .inRange) w w' → ∀ (entry entry' : Nat) (e e' : Entry) (run : Nat),
      w.state.entries[entry]? = some e → e.run = some run → w'.state.entries[entry']? = some e' → e'.run = some run →
      entry' = entry ∧ e.lastRequested ≤ e'.lastRequested ∧
        ∀ index, e.lastServed = some index → ∃ index', e'.lastServed = some index' ∧ index ≤ index') ∧
    (w.calls = 0 → (w.state.owners.map (·.1)).Nodup ∧ ∀ run entry, (run,entry) ∈ w.state.owners ↔
      ∃ e, w.state.entries[entry]? = some e ∧ e.run = some run) := by
  have bound_of {u : Traffic} {entry run : Nat} {e : Entry} (found : u.state.entries[entry]? = some e)
      (binds : e.run = some run) : u.state.skeleton.bound? entry = some run := by
    rw [State.bound?_skeleton,found]
    exact binds
  refine ⟨?_,?_,?_⟩
  · intro entry e run found binds
    have agrees := (noted_of_reachable copies reached).agrees entry
    rw [State.noteAt_of_found found] at agrees
    obtain ⟨job,ordered,rest⟩ := agrees run binds
    obtain ⟨r,here,rfl⟩ := State.run_of_job ordered
    exact ⟨r,here,rest⟩
  · intro w' later entry entry' e e' run found binds found' binds'
    rcases notes_go_on copies reached later (bound_of found binds) with ⟨still,onward⟩ | gone
    · have after : w'.Reachable policy .inRange := reached.trans later
      obtain rfl := (BoundOnly.of_bound (sound_of_reachable after) still).bound entry' (bound_of found' binds')
      rw [State.noteAt_of_found found,State.noteAt_of_found found'] at onward
      exact ⟨rfl,onward.requested,onward.served⟩
    · exact (gone.bound entry' (bound_of found' binds')).elim
  · intro quiet
    have filed := filed_of_reachable reached
    refine ⟨filed.nodup,fun run entry => ⟨fun member => ?_,?_⟩⟩
    · rcases filed.owned run entry member with bound | ⟨g,among,key,leaves,_⟩
      · rw [State.bound?_skeleton] at bound
        exact Option.bind_eq_some_iff.mp bound
      · simp only [grips,quiet,Multiset.map_zero,Multiset.zero_add] at among
        obtain ⟨grant,_,rfl⟩ := Multiset.mem_map.mp among
        cases leaves
    · rintro ⟨e,found,binds⟩
      exact filed.bound entry run (bound_of found binds)

/-- After the first segment of the film was asked for and served. -/
theorem books_after_first_segment :
    ∃ w : Traffic, w.Reachable (.ofConfig {}) .inRange ∧ w.calls = 0 ∧ (0,0) ∈ w.state.owners ∧
      ∃ e, w.state.entries[0]? = some e ∧ e.run = some 0 ∧ e.lastServed = some 0 ∧
        ∃ r, w.state.runs[0]? = some r ∧ (r.job.first ≤ e.lastRequested ∧ e.lastRequested < r.job.last) := by
  have asked : Reachable (.ofConfig {}) .inRange _ := .tail .refl (.ask firstRequest ⟨by decide,by decide⟩)
  have found := asked.tail (.goesOn _ 0 rfl rfl)
  have entered := found.tail (.goesOn _ 0 rfl rfl)
  have inside := entered.tail (.goesOn _ 0 rfl rfl)
  have unbound := inside.tail (.goesOn _ 0 rfl rfl)
  have rooted := unbound.tail (.goesOn _ 0 rfl rfl)
  have made := rooted.tail (.goesOn _ 0 rfl rfl)
  have served := made.tail (.ends _ 0 rfl rfl)
  have marked := served.tail (.mark ⟨firstRequest,⟨0,some 0,none⟩⟩ (Multiset.mem_singleton_self _) 0 none rfl)
  have waits := marked.tail (.goesOn _ 0 rfl rfl)
  have noted := waits.tail (.goesOn _ 0 rfl rfl)
  have done := noted.tail (.ends _ 0 rfl rfl)
  obtain ⟨ranges,_,owners⟩ := books_are_in_order (by decide) done
  obtain ⟨r,here,range,_⟩ := ranges 0 _ 0 rfl rfl
  exact ⟨_,done,rfl,((owners rfl).2 0 0).mpr ⟨_,rfl,rfl⟩,_,rfl,rfl,rfl,r,here,range⟩

end Traffic
end Playout.Playback
