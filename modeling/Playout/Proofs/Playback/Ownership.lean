import Playout.Proofs.Playback.Queues

/-!
Who answers for a run. A run that is not destroyed is bound to one entry, or is in
the hands of one call that has just made it or is about to destroy it; and what a
run is bound to is in the table under the session that the run was made for. The
moves of a call are taken apart into changes that keep this (`Sound`).
-/
namespace Playout.Playback

namespace Skeleton

/-- Whether an entry has left the table for good. -/
def isRetired (k : Skeleton) (entry : Nat) : Bool := k.retirements[entry]?.getD false

theorem bound?_bind_none (k : Skeleton) (entry other : Nat) :
    (k.bind entry none).bound? other = if entry = other then none else k.bound? other := by
  simp only [bound?,bind,List.getElem?_set]
  split
  · split <;> rfl
  · rfl

/-- An entry that is empty stays empty when another one is emptied. -/
theorem bound?_bind_eq_none {k : Skeleton} {entry other : Nat} (empty : k.bound? other = none) :
    (k.bind entry none).bound? other = none := by
  rw [bound?_bind_none,empty]
  split <;> rfl

theorem bound?_bind_some {k : Skeleton} {entry : Nat} (inside : entry < k.bindings.length) (run other : Nat) :
    (k.bind entry (some run)).bound? other = if entry = other then some run else k.bound? other := by
  simp only [bound?,bind,List.getElem?_set,inside]
  split <;> rfl

theorem isDestroyed_discard (k : Skeleton) (run other : Nat) :
    (k.discard (some run)).isDestroyed other = (run == other || k.isDestroyed other) := by
  simp only [isDestroyed,discard,List.getElem?_set]
  by_cases same : run = other
  · subst same
    simp only [beq_self_eq_true,Bool.true_or]
    split
    · split <;> simp
    · contradiction
  · simp [same]

/-- A run that is destroyed only now counts once more as destroyed. -/
theorem toNat_isDestroyed_discard {k : Skeleton} {run other : Nat}
    (alive : (k.isDestroyed other).toNat + (if other = run then 1 else 0) ≤ 1) :
    ((k.discard (some run)).isDestroyed other).toNat =
      (k.isDestroyed other).toNat + if other = run then 1 else 0 := by
  rw [k.isDestroyed_discard]
  by_cases same : other = run
  · subst same
    cases gone : k.isDestroyed other with
    | true => simp [gone] at alive
    | false => simp
  · have differs : (run == other) = false := beq_eq_false_iff_ne.mpr (Ne.symm same)
    simp [same,differs]

theorem length_bind (k : Skeleton) (entry : Nat) (run : Option Nat) :
    (k.bind entry run).bindings.length = k.bindings.length := List.length_set

theorem count_bind_none (k : Skeleton) (entry run : Nat) :
    (k.bind entry none).bindings.count (some run) + (if some run = k.bound? entry then 1 else 0) =
      k.bindings.count (some run) := by
  simp only [bind,bound?]
  by_cases inside : entry < k.bindings.length
  · rw [List.count_set inside]
    by_cases at_entry : k.bindings[entry] = some run
    · have member : 0 < k.bindings.count (some run) :=
        List.count_pos_iff.mpr (at_entry ▸ List.getElem_mem inside)
      simp [inside,at_entry]
      omega
    · simp [inside,at_entry,Ne.symm at_entry]
  · have outside : k.bindings.length ≤ entry := Nat.le_of_not_lt inside
    simp [List.set_eq_of_length_le outside,List.getElem?_eq_none outside]

theorem count_bind_some {k : Skeleton} {entry : Nat} (inside : entry < k.bindings.length)
    (empty : k.bound? entry = none) (run other : Nat) :
    (k.bind entry (some run)).bindings.count (some other) =
      k.bindings.count (some other) + if other = run then 1 else 0 := by
  have at_entry : k.bindings[entry] = none := by
    simpa [bound?,inside] using empty
  simp only [bind]
  rw [List.count_set inside,at_entry]
  by_cases same : other = run
  · simp [same]
  · simp [same,Ne.symm same]

/-- The skeleton with one more entry, under a key. -/
def enlist (k : Skeleton) (key : Key) : Skeleton :=
  { k with
    locks := k.locks ++ [.unused], bindings := k.bindings ++ [none], retirements := k.retirements ++ [false],
    table := k.table ++ [(key,k.locks.length)] }

theorem bound?_enlist (k : Skeleton) (key : Key) (entry : Nat) : (k.enlist key).bound? entry = k.bound? entry := by
  simp only [bound?,enlist]
  rw [List.getElem?_append]
  split
  · rfl
  · rename_i outside
    rw [List.getElem?_eq_none (Nat.le_of_not_lt outside),List.getElem?_singleton]
    split <;> rfl

theorem isRetired_enlist (k : Skeleton) (key : Key) (entry : Nat) :
    (k.enlist key).isRetired entry = k.isRetired entry := by
  simp only [isRetired,enlist]
  rw [List.getElem?_append]
  split
  · rfl
  · rename_i outside
    rw [List.getElem?_eq_none (Nat.le_of_not_lt outside),List.getElem?_singleton]
    split <;> rfl

/-- The skeleton where an entry has left the table for good. -/
def retire (k : Skeleton) (entry : Nat) : Skeleton :=
  { k.bind entry none with retirements := k.retirements.set entry true }

theorem isRetired_retire {k : Skeleton} {entry : Nat} (inside : entry < k.retirements.length) (other : Nat) :
    (k.retire entry).isRetired other = (entry == other || k.isRetired other) := by
  simp only [isRetired,retire]
  rw [List.getElem?_set]
  by_cases same : entry = other
  · subst same
    simp [inside]
  · simp [same]

end Skeleton

/-- What a call has in its hands fits the table. -/
structure Fits (k : Skeleton) (makers : List Key) (g : Grip) : Prop where
  given : ∀ entry, g.entry = some entry → entry < k.locks.length
  known : ∀ d entry, g.demand = some d → g.entry = some entry →
    (d.key,entry) ∈ k.table ∨ k.isRetired entry = true
  entered : ∀ entry ticket, g.hold.entered? = some (entry,ticket) → k.isRetired entry = false
  emptied : ∀ entry ticket, g.hold = .emptied entry ticket → k.bound? entry = none
  retires : ∀ key entry, g.hold = .retires key entry → k.isRetired entry = true
  visits : ∀ p ∈ g.visits, p.2 < k.locks.length ∧ ∀ key, (key,p.2) ∈ k.table → key = p.1
  fresh : ∀ run d, g.fresh = some run → g.demand = some d → makers[run]? = some d.key

/-- The table fits the entries, and the runs that are bound to them. -/
structure Listed (k : Skeleton) (makers : List Key) : Prop where
  bindings : k.bindings.length = k.locks.length
  retirements : k.retirements.length = k.locks.length
  keys : (k.table.map (·.1)).Nodup
  table : ∀ p ∈ k.table, p.2 < k.locks.length
  /-- An entry has one key. -/
  names : ∀ key key' entry, (key,entry) ∈ k.table → (key',entry) ∈ k.table → key = key'
  owners : ∀ p ∈ k.owners, p.2 < k.locks.length
  retired : ∀ entry, k.isRetired entry = true → k.bound? entry = none
  bound : ∀ entry run, k.bound? entry = some run → ∃ key, makers[run]? = some key ∧ (key,entry) ∈ k.table
  made : makers.length = k.destroyed.length
  working : k.isShuttingDown = false

/-- The queues do not change when a call holds what it held. -/
theorem Queued.keep {locks : List Lock} {g g' : Grip} {rest : Multiset Grip}
    (queued : Queued locks ((g ::ₘ rest).map Grip.hold)) (same : g'.hold = g.hold) :
    Queued locks ((g' ::ₘ rest).map Grip.hold) := by
  rw [Multiset.map_cons] at queued ⊢
  rwa [same]

/-- A run is destroyed, or bound to one entry, or in the hands of one call that has made it, or of one
    that has unbound it; there is one answer, and nobody else answers. -/
def Owned (k : Skeleton) (grips : Multiset Grip) : Prop :=
  ∀ run, (k.isDestroyed run).toNat + k.bindings.count (some run) + (grips.map Grip.fresh).count (some run) +
    (grips.map Grip.taken).count (some run) = 1

/-- Who answers for the runs does not change when nothing becomes of them. -/
theorem Owned.keep {k k' : Skeleton} {g g' : Grip} {rest : Multiset Grip} (owned : Owned k (g ::ₘ rest))
    (bindings : k'.bindings = k.bindings) (destroyed : k'.destroyed = k.destroyed) (fresh : g'.fresh = g.fresh)
    (taken : g'.taken = g.taken) : Owned k' (g' ::ₘ rest) := by
  intro run
  rw [← owned run,Multiset.map_cons,Multiset.map_cons,Skeleton.isDestroyed,bindings,destroyed,fresh,taken]
  rw [Multiset.map_cons,Multiset.map_cons,Skeleton.isDestroyed]

/-- An entry in the table that is retired is about to leave it. -/
def Leaving (k : Skeleton) (grips : Multiset Grip) : Prop :=
  ∀ key entry, (key,entry) ∈ k.table → k.isRetired entry = true → ∃ g ∈ grips, g.hold = .retires key entry

/-- Who is about to take an entry out of the table goes on with that. -/
theorem Leaving.keep {k : Skeleton} {g g' : Grip} {rest : Multiset Grip} (leaving : Leaving k (g ::ₘ rest))
    (stays : ∀ key entry, g.hold = .retires key entry → g'.hold = .retires key entry) :
    Leaving k (g' ::ₘ rest) := by
  intro key entry listed retired
  obtain ⟨h,member,leaves⟩ := leaving key entry listed retired
  rcases Multiset.mem_cons.mp member with rfl | other
  · exact ⟨g',Multiset.mem_cons_self _ _,stays key entry leaves⟩
  · exact ⟨h,Multiset.mem_cons_of_mem other,leaves⟩

/-- The table and the calls on it fit together. -/
structure Sound (k : Skeleton) (makers : List Key) (grips : Multiset Grip) : Prop where
  queued : Queued k.locks (grips.map Grip.hold)
  listed : Listed k makers
  fits : ∀ g ∈ grips, Fits k makers g
  owned : Owned k grips
  leaving : Leaving k grips

/-- Whether a grip holds neither locks nor runs. -/
structure Grip.IsIdle (g : Grip) : Prop where
  hold : g.hold = .free
  fresh : g.fresh = none
  taken : g.taken = none

namespace Sound

variable {k : Skeleton} {makers : List Key} {g g' : Grip} {rest : Multiset Grip} {entry ticket : Nat}

theorem empty : Sound (State.skeleton {}) [] 0 where
  queued := Queued.empty
  listed := by
    constructor <;> simp [State.skeleton,Skeleton.bound?,Skeleton.isRetired]
  fits := by simp
  owned := by
    intro run
    simp [State.skeleton,Skeleton.isDestroyed]
  leaving := by
    intro key entry listed
    cases listed

theorem head (sound : Sound k makers (g ::ₘ rest)) : Fits k makers g := sound.fits g (Multiset.mem_cons_self g rest)

theorem queue (sound : Sound k makers (g ::ₘ rest)) : Queued k.locks (g.hold ::ₘ rest.map Grip.hold) := by
  rw [← Multiset.map_cons]
  exact sound.queued

theorem others (sound : Sound k makers (g ::ₘ rest)) (g' : Grip) (member : g' ∈ rest) : Fits k makers g' :=
  sound.fits g' (Multiset.mem_cons_of_mem member)

/-! ### Calls and leases that come and go -/

theorem join (sound : Sound k makers rest) (idle : g.IsIdle) (fits : Fits k makers g) :
    Sound k makers (g ::ₘ rest) where
  queued := by
    have queued := sound.queued
    constructor
    · intro entry ticket
      rw [Multiset.map_cons,Multiset.map_cons,idle.hold,Multiset.count_cons_of_ne (by simp [Hold.ticket?])]
      exact queued.counted entry ticket
    · exact queued.nodup
    · exact queued.issued
    · intro h member
      rw [Multiset.map_cons,idle.hold] at member
      rcases Multiset.mem_cons.mp member with rfl | old
      · intro _ _ inside
        cases inside
      · exact queued.heads h old
  listed := sound.listed
  fits := Multiset.forall_mem_cons.mpr ⟨fits,sound.fits⟩
  owned run := by
    rw [← sound.owned run,Multiset.map_cons,Multiset.map_cons,idle.fresh,idle.taken]
    rw [Multiset.count_cons_of_ne (by simp),Multiset.count_cons_of_ne (by simp)]
  leaving key entry listed retired := by
    obtain ⟨h,member,leaves⟩ := sound.leaving key entry listed retired
    exact ⟨h,Multiset.mem_cons_of_mem member,leaves⟩

theorem part (sound : Sound k makers (g ::ₘ rest)) (idle : g.IsIdle) : Sound k makers rest where
  queued := by
    have queued := sound.queued
    constructor
    · intro entry ticket
      rw [← queued.counted,Multiset.map_cons,Multiset.map_cons,idle.hold]
      rw [Multiset.count_cons_of_ne (by simp [Hold.ticket?])]
    · exact queued.nodup
    · exact queued.issued
    · intro h member
      exact queued.heads h (by rw [Multiset.map_cons]; exact Multiset.mem_cons_of_mem member)
  listed := sound.listed
  fits := sound.others
  owned run := by
    have before := sound.owned run
    rw [Multiset.map_cons,Multiset.map_cons,idle.fresh,idle.taken] at before
    rw [Multiset.count_cons_of_ne (by simp),Multiset.count_cons_of_ne (by simp)] at before
    exact before
  leaving key entry listed retired := by
    obtain ⟨h,member,leaves⟩ := sound.leaving key entry listed retired
    rcases Multiset.mem_cons.mp member with rfl | other
    · rw [idle.hold] at leaves
      cases leaves
    · exact ⟨h,other,leaves⟩

/-- A call lets go of its demand or its entry. -/
theorem ease (sound : Sound k makers (g ::ₘ rest)) (covers : g.Covers g') : Sound k makers (g' ::ₘ rest) where
  queued := sound.queued.keep covers.hold
  listed := sound.listed
  fits := by
    have fits := sound.head
    refine Multiset.forall_mem_cons.mpr ⟨?_,sound.others⟩
    constructor
    · intro entry given
      rcases covers.entry with same | gone
      · exact fits.given entry (same ▸ given)
      · rw [gone] at given; cases given
    · intro d entry wants given
      rcases covers.demand with same | gone
      · rcases covers.entry with same' | gone'
        · exact fits.known d entry (same ▸ wants) (same' ▸ given)
        · rw [gone'] at given; cases given
      · rw [gone] at wants; cases wants
    · rw [covers.hold]; exact fits.entered
    · rw [covers.hold]; exact fits.emptied
    · rw [covers.hold]; exact fits.retires
    · exact fun p member => fits.visits p (covers.visits member)
    · intro run d made wants
      rcases covers.demand with same | gone
      · exact fits.fresh run d (covers.fresh ▸ made) (same ▸ wants)
      · rw [gone] at wants; cases wants
  owned := sound.owned.keep rfl rfl covers.fresh covers.taken
  leaving := sound.leaving.keep (fun _ _ leaves => covers.hold.trans leaves)

end Sound

/-! ### Entries and their locks -/

theorem Skeleton.length_onLock (k : Skeleton) (entry : Nat) (f : Lock → Lock) :
    (k.onLock entry f).locks.length = k.locks.length := List.length_modify _ _ _

theorem Listed.onLock {k : Skeleton} {makers : List Key} (listed : Listed k makers) (entry : Nat) (f : Lock → Lock) :
    Listed (k.onLock entry f) makers where
  bindings := by rw [k.length_onLock]; exact listed.bindings
  retirements := by rw [k.length_onLock]; exact listed.retirements
  keys := listed.keys
  table := by rw [k.length_onLock]; exact listed.table
  names := listed.names
  owners := by rw [k.length_onLock]; exact listed.owners
  retired := listed.retired
  bound := listed.bound
  made := listed.made
  working := listed.working

theorem Listed.unbind {k : Skeleton} {makers : List Key} (listed : Listed k makers) (entry : Nat) :
    Listed (k.bind entry none) makers :=
  { listed with
    bindings := (k.length_bind entry none).trans listed.bindings
    retired := fun other retired => Skeleton.bound?_bind_eq_none (listed.retired other retired)
    bound := by
      intro other run bound
      rw [k.bound?_bind_none] at bound
      split at bound
      · cases bound
      · exact listed.bound other run bound }

theorem Fits.onLock {k : Skeleton} {makers : List Key} {g : Grip} (fits : Fits k makers g) (entry : Nat)
    (f : Lock → Lock) : Fits (k.onLock entry f) makers g where
  given := by rw [k.length_onLock]; exact fits.given
  known := fits.known
  entered := fits.entered
  emptied := fits.emptied
  retires := fits.retires
  visits := by rw [k.length_onLock]; exact fits.visits
  fresh := fits.fresh

/-- A call that is not inside an entry fits whatever its ticket is. -/
theorem Fits.outside {k : Skeleton} {makers : List Key} {g : Grip} (fits : Fits k makers g) {h : Hold}
    (out : h.entered? = none) (stays : ∀ key entry, h ≠ .retires key entry) : Fits k makers { g with hold := h } where
  given := fits.given
  known := fits.known
  entered entry ticket inside := by
    rw [out] at inside
    cases inside
  emptied entry ticket at_entry := by
    have at_entry : h = .emptied entry ticket := at_entry
    rw [at_entry] at out
    cases out
  retires key entry leaves := absurd leaves (stays key entry)
  visits := fits.visits
  fresh := fits.fresh

/-- A call that is inside an entry in the table. -/
theorem Fits.enter {k : Skeleton} {makers : List Key} {g : Grip} (fits : Fits k makers g) {entry : Nat}
    (listed : k.isRetired entry = false) (ticket : Nat) :
    Fits k makers { g with hold := .inside entry ticket } where
  given := fits.given
  known := fits.known
  entered _ _ inside := by
    cases inside
    exact listed
  emptied _ _ at_entry := by cases at_entry
  retires _ _ leaves := by cases leaves
  visits := fits.visits
  fresh := fits.fresh

namespace Sound

variable {k : Skeleton} {makers : List Key} {g g' : Grip} {rest : Multiset Grip} {entry ticket : Nat}

/-- Runs belong to entries; which ones they belong to does not matter for the rest. -/
theorem own (sound : Sound k makers rest) {owners : List (Nat × Nat)} (inside : ∀ p ∈ owners, p.2 < k.locks.length) :
    Sound { k with owners := owners } makers rest where
  queued := sound.queued
  listed := { sound.listed with owners := inside }
  fits g member := { sound.fits g member with }
  owned := sound.owned
  leaving := sound.leaving

theorem ask (sound : Sound k makers (g ::ₘ rest)) (idle : g.hold = .free) {lock : Lock}
    (found : k.locks[entry]? = some lock) :
    Sound (k.onLock entry Lock.request) makers ({ g with hold := .waits entry lock.next } ::ₘ rest) where
  queued := by
    rw [Multiset.map_cons]
    exact sound.queue.ask (by rw [idle]; rfl) found
  listed := sound.listed.onLock entry _
  fits := Multiset.forall_mem_cons.mpr ⟨(sound.head.onLock entry _).outside rfl (fun _ _ => by simp),
    fun g' member => (sound.others g' member).onLock entry _⟩
  owned := sound.owned.keep rfl rfl rfl rfl
  leaving := sound.leaving.keep (fun _ _ leaves => by rw [idle] at leaves; cases leaves)

theorem leave (sound : Sound k makers (g ::ₘ rest)) (has : g.hold.ticket? = some (entry,ticket)) :
    Sound (k.onLock entry (·.leave ticket)) makers ({ g with hold := .free } ::ₘ rest) where
  queued := by
    rw [Multiset.map_cons]
    exact sound.queue.leave has rfl rfl
  listed := sound.listed.onLock entry _
  fits := Multiset.forall_mem_cons.mpr ⟨(sound.head.onLock entry _).outside rfl (fun _ _ => by simp),
    fun g' member => (sound.others g' member).onLock entry _⟩
  owned := sound.owned.keep rfl rfl rfl rfl
  leaving := sound.leaving.keep (fun _ _ leaves => by rw [leaves] at has; cases has)

/-- A call comes to the lock of an entry that is in the table. -/
theorem take (sound : Sound k makers (g ::ₘ rest)) (waits : g.hold = .waits entry ticket)
    (head : (ticketsAt k.locks entry).head? = some ticket) (listed : k.isRetired entry = false) :
    Sound k makers ({ g with hold := .inside entry ticket } ::ₘ rest) where
  queued := by
    rw [Multiset.map_cons]
    refine sound.queue.stay (by rw [waits]; rfl) ?_
    intro entry' ticket' inside
    cases inside
    exact head
  listed := sound.listed
  fits := Multiset.forall_mem_cons.mpr ⟨sound.head.enter listed ticket,sound.others⟩
  owned := sound.owned.keep rfl rfl rfl rfl
  leaving := sound.leaving.keep (fun _ _ leaves => by rw [waits] at leaves; cases leaves)

/-! ### Runs -/

/-- The run of an entry comes into the hands of the call that is inside. -/
theorem unbind (sound : Sound k makers (g ::ₘ rest)) (inside : g.hold = .inside entry ticket) (empty : g.taken = none) :
    Sound (k.bind entry none) makers
      ({ g with hold := .emptied entry ticket, taken := k.bound? entry } ::ₘ rest) where
  queued := by
    have entered : g.hold.entered? = (Hold.emptied entry ticket).entered? := by rw [inside]; rfl
    rw [Multiset.map_cons]
    refine sound.queue.stay (by rw [inside]; rfl) ?_
    rw [← entered]
    exact sound.queue.heads g.hold (Multiset.mem_cons_self _ _)
  listed := sound.listed.unbind entry
  fits := by
    refine Multiset.forall_mem_cons.mpr ⟨{ sound.head with
      entered := ?_, emptied := ?_, retires := ?_ },fun g' member => ?_⟩
    · intro entry' ticket' entered
      cases entered
      exact sound.head.entered entry ticket (by rw [inside]; rfl)
    · intro entry' ticket' at_entry
      cases at_entry
      rw [k.bound?_bind_none,if_pos rfl]
    · intro _ _ leaves
      cases leaves
    · have fits := sound.others g' member
      exact { fits with
        emptied := fun other ticket' at_entry => Skeleton.bound?_bind_eq_none (fits.emptied other ticket' at_entry) }
  owned run := by
    have before := sound.owned run
    have counts := k.count_bind_none entry run
    simp only [Multiset.map_cons,Multiset.count_cons,empty,reduceCtorEq,if_false] at before ⊢
    have same : (k.bind entry none).isDestroyed run = k.isDestroyed run := rfl
    rw [same]
    omega
  leaving := sound.leaving.keep (fun _ _ leaves => by rw [inside] at leaves; cases leaves)

/-- A call makes a run for the session of its demand. -/
theorem make (sound : Sound k makers (g ::ₘ rest)) {demand : Demand} (wants : g.demand = some demand)
    (unmade : g.fresh = none) (job : Encoder.Job) :
    Sound { k with jobs := k.jobs ++ [job], destroyed := k.destroyed ++ [false] } (makers ++ [demand.key])
      ({ g with fresh := some k.destroyed.length } ::ₘ rest) where
  queued := sound.queued.keep rfl
  listed := { sound.listed with
    bound := by
      intro entry run bound
      obtain ⟨key,made,found⟩ := sound.listed.bound entry run bound
      exact ⟨key,List.getElem?_append_left (List.getElem?_eq_some_iff.mp made).1 ▸ made,found⟩
    made := by simp [sound.listed.made] }
  fits := by
    refine Multiset.forall_mem_cons.mpr ⟨{ sound.head with fresh := ?_ },fun g' member => ?_⟩
    · intro run d made wants'
      cases made
      rw [wants] at wants'
      cases wants'
      rw [← sound.listed.made]
      simp
    · have fits := sound.others g' member
      refine { fits with fresh := fun run d made wants' => ?_ }
      have made := fits.fresh run d made wants'
      exact List.getElem?_append_left (List.getElem?_eq_some_iff.mp made).1 ▸ made
  owned run := by
    have before := sound.owned run
    simp only [Multiset.map_cons,Multiset.count_cons,unmade,reduceCtorEq,if_false] at before ⊢
    by_cases new : run = k.destroyed.length
    · subst new
      simp [Skeleton.isDestroyed] at before ⊢
      omega
    · have same : Skeleton.isDestroyed { k with jobs := k.jobs ++ [job], destroyed := k.destroyed ++ [false] } run =
          k.isDestroyed run := by
        simp only [Skeleton.isDestroyed]
        rcases Nat.lt_or_gt_of_ne new with old | beyond
        · rw [List.getElem?_append_left old]
        · rw [List.getElem?_eq_none (by simp; omega),List.getElem?_eq_none (by omega)]
      rw [same]
      simp [new]
      omega
  leaving := sound.leaving.keep (fun _ _ leaves => leaves)

/-- A call binds the run that it has made to the entry that it is inside. -/
theorem bind (sound : Sound k makers (g ::ₘ rest)) {demand : Demand} {run : Nat}
    (emptied : g.hold = .emptied entry ticket) (wants : g.demand = some demand) (given : g.entry = some entry)
    (made : g.fresh = some run) :
    Sound (k.bind entry (some run)) makers ({ g with hold := .inside entry ticket, fresh := none } ::ₘ rest) := by
  have entered : g.hold.entered? = some (entry,ticket) := by rw [emptied]; rfl
  have working : k.isRetired entry = false := sound.head.entered entry ticket entered
  have inside : entry < k.bindings.length := by
    rw [sound.listed.bindings]
    exact sound.head.given entry given
  have listed : (demand.key,entry) ∈ k.table := by
    rcases sound.head.known demand entry wants given with found | retired
    · exact found
    · rw [working] at retired
      cases retired
  constructor
  · rw [Multiset.map_cons]
    refine sound.queue.stay (by rw [emptied]; rfl) ?_
    intro entry' ticket' entered'
    cases entered'
    exact sound.queue.heads g.hold (Multiset.mem_cons_self _ _) entry ticket entered
  · exact { sound.listed with
      bindings := (k.length_bind entry (some run)).trans sound.listed.bindings
      retired := by
        intro other retired
        rw [Skeleton.bound?_bind_some inside]
        split
        · rename_i same
          have retired : k.isRetired other = true := retired
          rw [← same,working] at retired
          cases retired
        · exact sound.listed.retired other retired
      bound := by
        intro other run' bound
        rw [Skeleton.bound?_bind_some inside] at bound
        split at bound
        · rename_i same
          cases bound
          exact ⟨demand.key,sound.head.fresh run demand made wants,same ▸ listed⟩
        · exact sound.listed.bound other run' bound }
  · refine Multiset.forall_mem_cons.mpr ⟨?_,fun g' member => ?_⟩
    · have fits := sound.head.enter working ticket
      exact { fits with
        emptied := fun _ _ at_entry => by cases at_entry
        fresh := fun _ _ made' => by cases made' }
    · have fits := sound.others g' member
      refine { fits with emptied := fun other ticket' at_entry => ?_ }
      rw [Skeleton.bound?_bind_some inside]
      split
      · rename_i same
        have both : g'.hold.entered? = some (entry,ticket') := by rw [at_entry,same]; rfl
        exact absurd both (sound.queue.alone entered (Multiset.mem_map_of_mem _ member))
      · exact fits.emptied other ticket' at_entry
  · intro run'
    have before := sound.owned run'
    have counts := Skeleton.count_bind_some inside (sound.head.emptied entry ticket emptied) run run'
    simp only [Multiset.map_cons,Multiset.count_cons,made,reduceCtorEq,if_false,Option.some.injEq] at before ⊢
    have same : (k.bind entry (some run)).isDestroyed run' = k.isDestroyed run' := rfl
    rw [counts,same]
    omega
  · exact sound.leaving.keep (fun _ _ leaves => by rw [emptied] at leaves; cases leaves)

end Sound

theorem Listed.discard {k : Skeleton} {makers : List Key} (listed : Listed k makers) (run : Option Nat) :
    Listed (k.discard run) makers := by
  cases run with
  | none => exact listed
  | some run => exact { listed with made := listed.made.trans List.length_set.symm }

theorem Fits.discard {k : Skeleton} {makers : List Key} {g : Grip} (fits : Fits k makers g) (run : Option Nat) :
    Fits (k.discard run) makers g := by
  cases run with
  | none => exact fits
  | some run => exact { fits with }

namespace Sound

variable {k : Skeleton} {makers : List Key} {g g' : Grip} {rest : Multiset Grip} {entry ticket : Nat}

/-- A call destroys a run that nobody else answers for, or none. -/
theorem discard (sound : Sound k makers (g ::ₘ rest)) {gone : Option Nat} (hold : g'.hold = g.hold)
    (fits : Fits k makers g')
    (answers : ∀ run, (if some run = g.fresh then 1 else 0) + (if some run = g.taken then 1 else 0) =
      (if some run = g'.fresh then 1 else 0) + (if some run = g'.taken then 1 else 0) +
        if some run = gone then 1 else 0) :
    Sound (k.discard gone) makers (g' ::ₘ rest) where
  queued := by
    cases gone <;> exact sound.queued.keep hold
  listed := sound.listed.discard gone
  fits := Multiset.forall_mem_cons.mpr
    ⟨fits.discard gone,fun other member => (sound.others other member).discard gone⟩
  owned run := by
    have before := sound.owned run
    have answers := answers run
    simp only [Multiset.map_cons,Multiset.count_cons] at before ⊢
    cases gone with
    | none =>
      have same : k.discard none = k := rfl
      simp only [reduceCtorEq,if_false] at answers
      rw [same]
      omega
    | some gone =>
      have same : (k.discard (some gone)).bindings = k.bindings := rfl
      simp only [Option.some.injEq] at answers
      rw [Skeleton.toNat_isDestroyed_discard (by omega),same]
      omega
  leaving := by
    have stays : ∀ key entry, g.hold = .retires key entry → g'.hold = .retires key entry :=
      fun _ _ leaves => hold.trans leaves
    cases gone <;> exact sound.leaving.keep stays

/-- A call destroys the run that it has unbound. -/
theorem discard_taken (sound : Sound k makers (g ::ₘ rest)) :
    Sound (k.discard g.taken) makers ({ g with taken := none } ::ₘ rest) := by
  refine sound.discard rfl { sound.head with } ?_
  intro run
  simp

/-- A call destroys the run that it has made. -/
theorem discard_fresh (sound : Sound k makers (g ::ₘ rest)) :
    Sound (k.discard g.fresh) makers ({ g with fresh := none } ::ₘ rest) := by
  refine sound.discard rfl { sound.head with fresh := fun _ _ made => by cases made } ?_
  intro run
  simp [Nat.add_comm]

end Sound

/-! ### Entries that come and go -/

theorem Listed.enlist {k : Skeleton} {makers : List Key} (listed : Listed k makers) {key : Key}
    (unlisted : key ∉ k.table.map (·.1)) : Listed (k.enlist key) makers where
  bindings := by simp [Skeleton.enlist,listed.bindings]
  retirements := by simp [Skeleton.enlist,listed.retirements]
  keys := by
    rw [Skeleton.enlist,List.map_append]
    exact listed.keys.append (List.nodup_singleton key) (List.disjoint_singleton.mpr unlisted)
  table p member := by
    rw [Skeleton.enlist,List.length_append,List.length_singleton]
    rcases List.mem_append.mp member with old | new
    · exact Nat.lt_succ_of_lt (listed.table p old)
    · rw [List.mem_singleton.mp new]
      exact Nat.lt_succ_self _
  names key' key'' entry found found' := by
    have fresh : ∀ name, (name,k.locks.length) ∉ k.table := fun name old =>
      Nat.lt_irrefl _ (listed.table _ old)
    rcases List.mem_append.mp found with old | new <;> rcases List.mem_append.mp found' with old' | new'
    · exact listed.names key' key'' entry old old'
    · cases List.mem_singleton.mp new'
      exact absurd old (fresh key')
    · cases List.mem_singleton.mp new
      exact absurd old' (fresh key'')
    · cases List.mem_singleton.mp new
      cases List.mem_singleton.mp new'
      rfl
  owners p member := by
    rw [Skeleton.enlist,List.length_append]
    exact Nat.lt_add_right _ (listed.owners p member)
  retired entry gone := by
    rw [k.isRetired_enlist] at gone
    rw [k.bound?_enlist]
    exact listed.retired entry gone
  bound entry run at_entry := by
    rw [k.bound?_enlist] at at_entry
    obtain ⟨key',made,found⟩ := listed.bound entry run at_entry
    exact ⟨key',made,List.mem_append_left _ found⟩
  made := listed.made
  working := listed.working

theorem Fits.enlist {k : Skeleton} {makers : List Key} {g : Grip} (fits : Fits k makers g) (key : Key) :
    Fits (k.enlist key) makers g where
  given entry given := by
    rw [Skeleton.enlist,List.length_append]
    exact Nat.lt_add_right _ (fits.given entry given)
  known d entry wants given := by
    rw [k.isRetired_enlist]
    exact (fits.known d entry wants given).imp_left (List.mem_append_left _)
  entered entry ticket entered := by
    rw [k.isRetired_enlist]
    exact fits.entered entry ticket entered
  emptied entry ticket at_entry := by
    rw [k.bound?_enlist]
    exact fits.emptied entry ticket at_entry
  retires key' entry leaves := by
    rw [k.isRetired_enlist]
    exact fits.retires key' entry leaves
  visits p member := by
    obtain ⟨inside,names⟩ := fits.visits p member
    rw [Skeleton.enlist,List.length_append]
    refine ⟨Nat.lt_add_right _ inside,fun key' found => ?_⟩
    rcases List.mem_append.mp found with old | new
    · exact names key' old
    · have same : p.2 = k.locks.length := (Prod.ext_iff.mp (List.mem_singleton.mp new)).2
      omega
  fresh := fits.fresh

/-- A call that is not inside an entry fits when the entry is retired. -/
theorem Fits.retire {k : Skeleton} {makers : List Key} {g : Grip} (fits : Fits k makers g) {entry : Nat}
    (inside : entry < k.retirements.length) (elsewhere : ∀ ticket, g.hold.entered? ≠ some (entry,ticket)) :
    Fits (k.retire entry) makers g where
  given := fits.given
  known d other wants given := by
    rw [Skeleton.isRetired_retire inside]
    rcases fits.known d other wants given with still | gone
    · exact .inl still
    · exact .inr (by rw [gone,Bool.or_true])
  entered other ticket entered := by
    have differs : entry ≠ other := by
      rintro rfl
      exact elsewhere ticket entered
    rw [Skeleton.isRetired_retire inside,fits.entered other ticket entered]
    simp [differs]
  emptied other ticket at_entry := Skeleton.bound?_bind_eq_none (fits.emptied other ticket at_entry)
  retires key other leaves := by
    rw [Skeleton.isRetired_retire inside,fits.retires key other leaves,Bool.or_true]
  visits := fits.visits
  fresh := fits.fresh

namespace Sound

variable {k : Skeleton} {makers : List Key} {g g' : Grip} {rest : Multiset Grip} {entry ticket : Nat}

/-- An entry is added under a key that has none. -/
theorem enlist (sound : Sound k makers rest) {key : Key} (unlisted : key ∉ k.table.map (·.1)) :
    Sound (k.enlist key) makers rest where
  queued := sound.queued.grow
  listed := sound.listed.enlist unlisted
  fits g member := (sound.fits g member).enlist key
  owned run := by
    have before := sound.owned run
    rw [Skeleton.enlist,List.count_append,List.count_singleton]
    simp only [beq_iff_eq,reduceCtorEq,if_false]
    exact before
  leaving key' entry found gone := by
    rw [k.isRetired_enlist] at gone
    rcases List.mem_append.mp found with old | new
    · exact sound.leaving key' entry old gone
    · cases List.mem_singleton.mp new
      have outside : k.isRetired k.locks.length = false := by
        simp [Skeleton.isRetired,← sound.listed.retirements]
      rw [outside] at gone
      cases gone

/-- A call is given an entry of the table. -/
theorem give (sound : Sound k makers (g ::ₘ rest)) {demand : Demand} (wants : g.demand = some demand)
    (found : (demand.key,entry) ∈ k.table) :
    Sound k makers ({ g with entry := some entry } ::ₘ rest) where
  queued := sound.queued.keep rfl
  listed := sound.listed
  fits := by
    refine Multiset.forall_mem_cons.mpr ⟨{ sound.head with given := ?_, known := ?_ },sound.others⟩
    · intro _ given
      cases given
      exact sound.listed.table _ found
    · intro d _ wants' given
      cases given
      have wants' : g.demand = some d := wants'
      rw [wants] at wants'
      cases wants'
      exact .inl found
  owned := sound.owned.keep rfl rfl rfl rfl
  leaving := sound.leaving.keep (fun _ _ leaves => leaves)

/-- A call lists entries of the table, to look at them. -/
theorem list (sound : Sound k makers (g ::ₘ rest)) {visits : List (Key × Nat)} (listed : visits ⊆ k.table) :
    Sound k makers ({ g with visits := visits } ::ₘ rest) where
  queued := sound.queued.keep rfl
  listed := sound.listed
  fits := by
    refine Multiset.forall_mem_cons.mpr ⟨{ sound.head with visits := fun p member => ?_ },sound.others⟩
    exact ⟨sound.listed.table p (listed member),
      fun key found => sound.listed.names key p.1 p.2 found (listed member)⟩
  owned := sound.owned.keep rfl rfl rfl rfl
  leaving := sound.leaving.keep (fun _ _ leaves => leaves)

/-- A call retires an entry whose lock nobody holds. -/
theorem retire (sound : Sound k makers (g ::ₘ rest)) (idle : g.hold = .free) (empty : g.taken = none) {key : Key}
    (visited : (key,entry) ∈ g.visits) {lock : Lock} (found : k.locks[entry]? = some lock) (unlocked : lock.isFree = true) :
    Sound (k.retire entry) makers ({ g with hold := .retires key entry, taken := k.bound? entry } ::ₘ rest) := by
  have inside : entry < k.retirements.length := by
    rw [sound.listed.retirements]
    exact (List.getElem?_eq_some_iff.mp found).1
  have elsewhere : ∀ h ∈ g ::ₘ rest, ∀ ticket, h.hold.entered? ≠ some (entry,ticket) := fun h member _ =>
    sound.queued.nobody found unlocked (Multiset.mem_map_of_mem _ member)
  constructor
  · rw [Multiset.map_cons]
    exact sound.queue.stay (by rw [idle]; rfl) (fun _ _ entered => by cases entered)
  · exact { sound.listed.unbind entry with
      retirements := List.length_set.trans sound.listed.retirements
      retired := by
        intro other gone
        rw [Skeleton.isRetired_retire inside] at gone
        refine (k.bound?_bind_none entry other).trans ?_
        split
        · rfl
        · rename_i differs
          have gone : k.isRetired other = true := by simpa [differs] using gone
          exact sound.listed.retired other gone }
  · refine Multiset.forall_mem_cons.mpr ⟨?_,fun g' member => ?_⟩
    · have fits := sound.head.retire inside (elsewhere g (Multiset.mem_cons_self g rest))
      exact { fits with
        entered := fun _ _ entered => by cases entered
        emptied := fun _ _ at_entry => by cases at_entry
        retires := by
          intro _ other leaves
          cases leaves
          rw [Skeleton.isRetired_retire inside,beq_self_eq_true,Bool.true_or] }
    · exact (sound.others g' member).retire inside (elsewhere g' (Multiset.mem_cons_of_mem member))
  · intro run
    have before := sound.owned run
    have counts := k.count_bind_none entry run
    simp only [Multiset.map_cons,Multiset.count_cons,empty,reduceCtorEq,if_false] at before ⊢
    have destroyed : (k.retire entry).isDestroyed run = k.isDestroyed run := rfl
    have bindings : (k.retire entry).bindings = (k.bind entry none).bindings := rfl
    rw [destroyed,bindings]
    omega
  · intro key' other found' gone
    rw [Skeleton.isRetired_retire inside] at gone
    by_cases same : entry = other
    · subst same
      obtain rfl := (sound.head.visits _ visited).2 key' found'
      exact ⟨_,Multiset.mem_cons_self _ _,rfl⟩
    · have gone : k.isRetired other = true := by simpa [same] using gone
      exact sound.leaving.keep (fun _ _ leaves => by rw [idle] at leaves; cases leaves) key' other found' gone

/-- A retired entry leaves the table. -/
theorem unlist (sound : Sound k makers (g ::ₘ rest)) {key : Key} (leaves : g.hold = .retires key entry) :
    Sound { k with table := k.table.filter (· ≠ (key,entry)) } makers ({ g with hold := .free } ::ₘ rest) := by
  have listed := sound.listed
  have gone : k.isRetired entry = true := sound.head.retires key entry leaves
  -- What is left out is known to be retired, so it is bound to nothing.
  have stays : ∀ key' other, (key',other) ∈ k.table → k.isRetired other = false →
      (key',other) ∈ k.table.filter (· ≠ (key,entry)) := by
    intro key' other found working
    refine List.mem_filter.mpr ⟨found,?_⟩
    have differs : other ≠ entry := by
      rintro rfl
      rw [gone] at working
      cases working
    simp [differs]
  have known : ∀ g', Fits k makers g' → ∀ d other, g'.demand = some d → g'.entry = some other →
      (d.key,other) ∈ k.table.filter (· ≠ (key,entry)) ∨ k.isRetired other = true := by
    intro g' fits d other wants given
    rcases fits.known d other wants given with found | gone'
    · cases working : k.isRetired other with
      | true => exact .inr rfl
      | false => exact .inl (stays d.key other found working)
    · exact .inr gone'
  have visits : ∀ g', Fits k makers g' → ∀ p ∈ g'.visits, p.2 < k.locks.length ∧
      ∀ key', (key',p.2) ∈ k.table.filter (· ≠ (key,entry)) → key' = p.1 := by
    intro g' fits p member
    obtain ⟨inside,names⟩ := fits.visits p member
    exact ⟨inside,fun key' found => names key' (List.mem_of_mem_filter found)⟩
  constructor
  · rw [Multiset.map_cons]
    exact sound.queue.stay (by rw [leaves]; rfl) (fun _ _ entered => by cases entered)
  · exact { listed with
      keys := (List.filter_sublist.map _).nodup listed.keys
      table := fun p member => listed.table p (List.mem_of_mem_filter member)
      names := fun key' key'' other found found' =>
        listed.names key' key'' other (List.mem_of_mem_filter found) (List.mem_of_mem_filter found')
      bound := by
        intro other run at_other
        obtain ⟨key',made,found⟩ := listed.bound other run at_other
        refine ⟨key',made,stays key' other found ?_⟩
        cases working : k.isRetired other with
        | false => rfl
        | true =>
          have none : k.bound? other = none := listed.retired other working
          have some : k.bound? other = some run := at_other
          rw [none] at some
          cases some }
  · refine Multiset.forall_mem_cons.mpr ⟨?_,fun g' member => ?_⟩
    · have fits := sound.head.outside (h := .free) rfl (fun _ _ => by simp)
      exact { fits with known := known _ fits, visits := visits _ fits }
    · have fits := sound.others g' member
      exact { fits with known := known g' fits, visits := visits g' fits }
  · exact sound.owned.keep rfl rfl rfl rfl
  · intro key' other found gone'
    obtain ⟨listed',differs⟩ := List.mem_filter.mp found
    obtain ⟨h,member,leaves'⟩ := sound.leaving key' other listed' gone'
    rcases Multiset.mem_cons.mp member with rfl | others
    · rw [leaves] at leaves'
      cases leaves'
      simp at differs
    · exact ⟨h,Multiset.mem_cons_of_mem others,leaves'⟩

end Sound
end Playout.Playback
