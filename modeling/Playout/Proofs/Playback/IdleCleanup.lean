import Mathlib.Data.Multiset.Filter
import Playout.Proofs.Playback.OneRun
import Playout.Proofs.Playback.Ties

/-!
Cleaning up leaves alone what is in use. An entry is retired only when it counts no
reference, and everybody who has found it in the table counts as one, so it stays in
the table as long as a lease of it is out (`Guarded.kept`). A run is bound to one
entry in its life; who has learnt of it under the lock of that entry holds the entry
(`Guarded.used`), so the run of an entry without references is on no lease
(`Guarded.apart`).
-/
namespace Playout.Playback

variable {policy : Policy} {clock : Clock} {s t : State} {g h : Grip} {news : List Key}

/-! ### What a move does to the table and to where runs are bound -/

/-- The table, and which entries are retired, do not change when runs are bound or destroyed. -/
structure Skeleton.SameTable (k k' : Skeleton) : Prop where
  table : k'.table = k.table
  retirements : k'.retirements = k.retirements

theorem Skeleton.SameTable.discard {k k' : Skeleton} (same : k.SameTable k') (run : Option Nat) :
    k.SameTable (k'.discard run) := by
  cases run <;> exact ⟨same.table,same.retirements⟩

theorem Skeleton.SameTable.disown {k k' : Skeleton} (same : k.SameTable k') (run : Option Nat) :
    k.SameTable (k'.disown run) := by
  cases run <;> exact ⟨same.table,same.retirements⟩

theorem Acquire.skeleton_enter (s : State) (clock : Clock) (key : Key) :
    (enter clock key s).1.skeleton = s.skeleton ∨ (enter clock key s).1.skeleton = s.skeleton.enlist key := by
  unfold enter
  cases s.find? key with
  | some entry => exact .inl rfl
  | none => exact .inr (by simp [State.skeleton,Skeleton.enlist])

/-- A move leaves the table as it is, or adds an entry, or retires one that counts no reference, or takes one out
    of the table that the call has retired. -/
theorem Move.listing (move : Move policy clock s g t h news) :
    s.skeleton.SameTable t.skeleton ∨
      (∃ key, (s.skeleton.enlist key).SameTable t.skeleton) ∨
      (∃ entry, s.references[entry]?.getD 0 = 0 ∧ (s.skeleton.retire entry).SameTable t.skeleton) ∨
      ∃ key entry, g.hold = .retires key entry ∧
        Skeleton.SameTable { s.skeleton with table := s.skeleton.table.filter (· ≠ (key,entry)) } t.skeleton := by
  cases move with
  | rests same => exact .inl (by rw [same]; exact ⟨rfl,rfl⟩)
  | enters demand =>
    rcases Acquire.skeleton_enter s clock demand.key with same | new
    · exact .inl (by rw [same]; exact ⟨rfl,rfl⟩)
    · exact .inr (.inl ⟨demand.key,by rw [new]; exact ⟨rfl,rfl⟩⟩)
  | asks idle known same => exact .inl (by rw [State.skeleton_askLock,same]; exact ⟨rfl,rfl⟩)
  | takes waits locked listed => exact .inl ⟨rfl,rfl⟩
  | leaves holds freed => exact .inl (by rw [freed]; exact ⟨rfl,rfl⟩)
  | unbinds inside empty =>
    refine .inl ?_
    rw [State.skeleton_unbindRun]
    apply Skeleton.SameTable.disown
    exact ⟨rfl,rfl⟩
  | makes demand first emptied wants unmade => exact .inl ⟨rfl,rfl⟩
  | binds demand first emptied wants given made launched =>
    refine .inl ?_
    rw [State.skeleton_replace,State.skeleton_unlock,State.skeleton_bindRun,s.skeleton_launch launched]
    apply Skeleton.SameTable.discard
    exact ⟨rfl,rfl⟩
  | refuses made => exact .inl (by rw [State.skeleton_refuse]; exact ⟨rfl,rfl⟩)
  | givesUp why emptied unmade same =>
    refine .inl ?_
    rw [State.skeleton_letGo,State.skeleton_replace,State.skeleton_unlock,same]
    apply Skeleton.SameTable.discard
    exact ⟨rfl,rfl⟩
  | lists visits listed => exact .inl ⟨rfl,rfl⟩
  | @retires _ key entry e idle empty visited found unlocked unheld =>
    refine .inr (.inr (.inl ⟨entry,?_,?_⟩))
    · simp [State.references,found,unheld]
    · rw [State.skeleton_retire]
      exact ⟨rfl,rfl⟩
  | @unlists _ key entry retired =>
    refine .inr (.inr (.inr ⟨key,entry,retired,?_⟩))
    cases g.taken with
    | none => exact ⟨rfl,rfl⟩
    | some run =>
      rw [State.unlist,State.skeleton_destroyed]
      exact ⟨rfl,rfl⟩

/-- An entry in the table that is held stays there. -/
theorem Move.keeps_listed {makers : List Key} (move : Move policy clock s g t h news)
    (listed : Listed s.skeleton makers) (fits : Fits s.skeleton makers g) {p : Key × Nat}
    (found : p ∈ s.skeleton.table) (working : s.skeleton.isRetired p.2 = false)
    (held : s.references[p.2]?.getD 0 ≠ 0) : p ∈ t.skeleton.table ∧ t.skeleton.isRetired p.2 = false := by
  have retired {k : Skeleton} (same : k.SameTable t.skeleton) : t.skeleton.isRetired p.2 = k.isRetired p.2 := by
    rw [Skeleton.isRetired,Skeleton.isRetired,same.retirements]
  rcases move.listing with same | ⟨key,new⟩ | ⟨entry,unheld,gone⟩ | ⟨key,entry,leaves,gone⟩
  · rw [same.table,retired same]
    exact ⟨found,working⟩
  · rw [new.table,retired new,Skeleton.isRetired_enlist]
    exact ⟨List.mem_append_left _ found,working⟩
  · have inside : p.2 < s.skeleton.retirements.length := listed.retirements ▸ listed.table p found
    have elsewhere : entry ≠ p.2 := by
      rintro rfl
      exact held unheld
    rw [gone.table,retired gone]
    refine ⟨found,?_⟩
    rw [Skeleton.isRetired,Skeleton.retire,List.getElem?_set_ne elsewhere]
    exact working
  · have elsewhere : p ≠ (key,entry) := by
      rintro rfl
      rw [fits.retires key entry leaves] at working
      cases working
    rw [gone.table,retired gone]
    exact ⟨List.mem_filter.mpr ⟨found,by simpa using elsewhere⟩,working⟩

/-- No run is bound but one that has just been made, and none is made that there was before. -/
structure BindsMade (k : Skeleton) (g : Grip) (k' : Skeleton) (g' : Grip) : Prop where
  made : k.destroyed.length ≤ k'.destroyed.length
  fresh : ∀ run, g'.fresh = some run → g.fresh = some run ∨ run = k.destroyed.length
  bound : ∀ entry run, k'.bound? entry = some run → k.bound? entry = some run ∨ g.fresh = some run

namespace BindsMade

variable {k k' : Skeleton} {g' : Grip}

theorem same (bindings : k'.bindings = k.bindings) (destroyed : k'.destroyed = k.destroyed)
    (fresh : g'.fresh = g.fresh) : BindsMade k g k' g' where
  made := Nat.le_of_eq (by rw [destroyed])
  fresh run made := .inl (fresh ▸ made)
  bound entry run bound := by
    rw [Skeleton.bound?,bindings] at bound
    exact .inl bound

/-- That the run of an entry is unbound binds none. -/
theorem unbound {entry : Nat} (bindings : k'.bindings = (k.bind entry none).bindings)
    (destroyed : k'.destroyed = k.destroyed) (fresh : g'.fresh = g.fresh) : BindsMade k g k' g' where
  made := Nat.le_of_eq (by rw [destroyed])
  fresh run made := .inl (fresh ▸ made)
  bound other run bound := by
    rw [Skeleton.bound?,bindings] at bound
    have bound : (k.bind entry none).bound? other = some run := bound
    rw [Skeleton.bound?_bind_none] at bound
    split at bound
    · cases bound
    · exact .inl bound

theorem disown (binds : BindsMade k g k' g') (run : Option Nat) : BindsMade k g (k'.disown run) g' := by
  cases run <;> exact ⟨binds.made,binds.fresh,binds.bound⟩

theorem discard (binds : BindsMade k g k' g') (run : Option Nat) : BindsMade k g (k'.discard run) g' := by
  cases run with
  | none => exact binds
  | some run => exact ⟨binds.made.trans (Nat.le_of_eq List.length_set.symm),binds.fresh,binds.bound⟩

end BindsMade

theorem Move.bindings (move : Move policy clock s g t h news) : BindsMade s.skeleton g t.skeleton h := by
  cases move with
  | rests same => exact .same (by rw [same]) (by rw [same]) rfl
  | enters demand =>
    rcases Acquire.skeleton_enter s clock demand.key with same | new
    · rw [same]
      exact .same rfl rfl rfl
    · rw [new]
      refine ⟨Nat.le_refl _,fun _ => .inl,?_⟩
      intro entry run bound
      exact .inl ((s.skeleton.bound?_enlist demand.key entry).symm.trans bound)
  | asks idle known same =>
    rw [State.skeleton_askLock,same]
    exact .same rfl rfl rfl
  | takes waits locked listed => exact .same rfl rfl rfl
  | leaves holds freed =>
    rw [freed]
    exact .same rfl rfl rfl
  | @unbinds _ entry _ inside empty =>
    rw [State.skeleton_unbindRun]
    apply BindsMade.disown
    exact .unbound rfl rfl rfl
  | makes demand first emptied wants unmade =>
    refine ⟨?_,?_,fun _ _ => .inl⟩
    · simp [State.skeleton]
    · intro run made
      cases made
      exact .inr (by simp [State.skeleton])
  | @binds u _ entry ticket run demand first emptied wants given made launched =>
    rw [State.skeleton_replace,State.skeleton_unlock,State.skeleton_bindRun,s.skeleton_launch launched]
    apply BindsMade.discard
    refine ⟨Nat.le_refl _,?_,?_⟩
    · intro run' made'
      cases made'
    · intro other run' bound
      have bound : (s.skeleton.bindings.set entry (some run))[other]?.join = some run' := bound
      rw [List.getElem?_set] at bound
      split at bound
      · split at bound
        · cases bound
          exact .inr made
        · cases bound
      · exact .inl bound
  | refuses made =>
    rw [State.skeleton_refuse]
    apply BindsMade.discard
    refine ⟨Nat.le_refl _,?_,fun _ _ => .inl⟩
    intro run' made'
    cases made'
  | givesUp why emptied unmade same =>
    rw [State.skeleton_letGo,State.skeleton_replace,State.skeleton_unlock,same]
    apply BindsMade.discard
    exact .same rfl rfl rfl
  | lists visits listed => exact .same rfl rfl rfl
  | retires idle empty visited found unlocked unheld =>
    rw [State.skeleton_retire]
    exact .unbound rfl rfl rfl
  | unlists retired =>
    cases g.taken with
    | none => exact .same rfl rfl rfl
    | some run =>
      rw [State.unlist,State.skeleton_destroyed]
      apply BindsMade.discard
      exact .same rfl rfl rfl

/-- A run that is bound, if at all, to certain entries, and is not just being made. -/
structure BoundOnly (k : Skeleton) (grips : Multiset Grip) (run : Nat) (places : Nat → Prop) : Prop where
  made : run < k.destroyed.length
  known : ∀ g ∈ grips, g.fresh ≠ some run
  bound : ∀ entry, k.bound? entry = some run → places entry

namespace BoundOnly

variable {k k' : Skeleton} {g' : Grip} {rest grips : Multiset Grip} {makers : List Key} {run entry : Nat}
  {places : Nat → Prop}

/-- Wherever a run may be bound, no move makes it bound elsewhere. -/
theorem move (only : BoundOnly k (g ::ₘ rest) run places) (binds : BindsMade k g k' g') :
    BoundOnly k' (g' ::ₘ rest) run places where
  made := Nat.lt_of_lt_of_le only.made binds.made
  known := by
    have unmade := only.known g (Multiset.mem_cons_self g rest)
    refine Multiset.forall_mem_cons.mpr ⟨?_,fun h member => only.known h (Multiset.mem_cons_of_mem member)⟩
    intro made
    rcases binds.fresh run made with before | new
    · exact unmade before
    · exact Nat.ne_of_lt only.made new
  bound entry bound := by
    rcases binds.bound entry run bound with before | made
    · exact only.bound entry before
    · exact absurd made (only.known g (Multiset.mem_cons_self g rest))

theorem join (only : BoundOnly k grips run places) (unmade : g.fresh = none) :
    BoundOnly k (g ::ₘ grips) run places where
  made := only.made
  known := by
    refine Multiset.forall_mem_cons.mpr ⟨?_,only.known⟩
    rw [unmade]
    exact fun none => by cases none
  bound := only.bound

theorem part (only : BoundOnly k (g ::ₘ grips) run places) : BoundOnly k grips run places where
  made := only.made
  known h member := only.known h (Multiset.mem_cons_of_mem member)
  bound := only.bound

/-- A run that is bound is bound to one entry. -/
theorem of_bound (sound : Sound k makers grips) (at_entry : k.bound? entry = some run) :
    BoundOnly k grips run (· = entry) := by
  have owned := sound.owned run
  have counts := k.count_bind_none entry run
  rw [if_pos at_entry.symm] at counts
  refine ⟨?_,?_,?_⟩
  · obtain ⟨key,made,_⟩ := sound.listed.bound entry run at_entry
    exact sound.listed.made ▸ (List.getElem?_eq_some_iff.mp made).1
  · intro g member made
    have fresh : 0 < (grips.map Grip.fresh).count (some run) :=
      Multiset.count_pos.mpr (made ▸ Multiset.mem_map_of_mem _ member)
    omega
  · intro other bound
    by_contra elsewhere
    have still : (k.bind entry none).bound? other = some run := by
      rw [k.bound?_bind_none,if_neg (Ne.symm elsewhere)]
      exact bound
    have member : some run ∈ (k.bind entry none).bindings := by
      rw [Skeleton.bound?,Option.join_eq_some_iff] at still
      exact List.mem_of_getElem? still
    have counted := List.count_pos_iff.mpr member
    omega

/-- A run that somebody has unbound is bound nowhere. -/
theorem of_taken (sound : Sound k makers grips) {g : Grip} (member : g ∈ grips) (taken : g.taken = some run) :
    BoundOnly k grips run fun _ => False := by
  have owned := sound.owned run
  have counted : 0 < (grips.map Grip.taken).count (some run) :=
    Multiset.count_pos.mpr (taken ▸ Multiset.mem_map_of_mem _ member)
  refine ⟨?_,?_,?_⟩
  · by_contra outside
    have gone : k.isDestroyed run = true := by
      rw [Skeleton.isDestroyed,List.getElem?_eq_none (Nat.le_of_not_lt outside)]
      rfl
    rw [gone,Bool.toNat_true] at owned
    omega
  · intro h member' made
    have fresh : 0 < (grips.map Grip.fresh).count (some run) :=
      Multiset.count_pos.mpr (made ▸ Multiset.mem_map_of_mem _ member')
    omega
  · intro entry bound
    have at_entry : some run ∈ k.bindings := by
      rw [Skeleton.bound?,Option.join_eq_some_iff] at bound
      exact List.mem_of_getElem? bound
    have bindings := List.count_pos_iff.mpr at_entry
    omega

end BoundOnly

/-! ### What keeps entries and runs from being cleaned up -/

/-- Who holds an entry counts there. What has been found in the table is still there, and a run is used where it is
    bound and by nobody that takes it out of the way. -/
structure Guarded (k : Skeleton) (references : List Nat) (ties : Multiset Tie) (grips : Multiset Grip) : Prop where
  counted : Counted references (ties.map Tie.held)
  kept : ∀ x ∈ ties, ∀ p, x.kept = some p → p ∈ k.table ∧ k.isRetired p.2 = false
  used : ∀ x ∈ ties, ∀ p, x.used = some p → BoundOnly k grips p.2 (· = p.1)
  cleaned : ∀ x ∈ ties, ∀ run, x.cleaned = some run → BoundOnly k grips run fun _ => False
  apart : ∀ x ∈ ties, ∀ y ∈ ties, ∀ p run, x.used = some p → y.cleaned = some run → p.2 ≠ run

namespace Guarded

variable {k : Skeleton} {references : List Nat} {ties : Multiset Tie} {grips : Multiset Grip} {x y : Tie} {g' : Grip}

theorem empty : Guarded (State.skeleton {}) [] 0 0 := by
  constructor <;> simp [Counted]

/-- A call begins that has nothing to do with entries and runs. -/
theorem join (guarded : Guarded k references ties grips) (unmade : g.fresh = none) :
    Guarded k references (.free ::ₘ ties) (g ::ₘ grips) where
  counted := by
    rw [Multiset.map_cons]
    exact Counted.of_free.mpr guarded.counted
  kept x member p kept := by
    rcases Multiset.mem_cons.mp member with rfl | old
    · cases kept
    · exact guarded.kept x old p kept
  used x member p used := by
    rcases Multiset.mem_cons.mp member with rfl | old
    · cases used
    · exact (guarded.used x old p used).join unmade
  cleaned x member run cleaned := by
    rcases Multiset.mem_cons.mp member with rfl | old
    · cases cleaned
    · exact (guarded.cleaned x old run cleaned).join unmade
  apart x member y member' p run used cleaned := by
    rcases Multiset.mem_cons.mp member with rfl | old
    · cases used
    · rcases Multiset.mem_cons.mp member' with rfl | old'
      · cases cleaned
      · exact guarded.apart x old y old' p run used cleaned

/-- A call comes to its end and leaves nothing. -/
theorem part (guarded : Guarded k references (.free ::ₘ ties) (g ::ₘ grips)) : Guarded k references ties grips where
  counted := by
    have counted := guarded.counted
    rw [Multiset.map_cons] at counted
    exact Counted.of_free.mp counted
  kept x member := guarded.kept x (Multiset.mem_cons_of_mem member)
  used x member p used := (guarded.used x (Multiset.mem_cons_of_mem member) p used).part
  cleaned x member run cleaned := (guarded.cleaned x (Multiset.mem_cons_of_mem member) run cleaned).part
  apart x member y member' := guarded.apart x (Multiset.mem_cons_of_mem member) y (Multiset.mem_cons_of_mem member')

theorem references_ne_zero (guarded : Guarded k references ties grips) (member : x ∈ ties) {entry : Nat}
    (held : x.held = some entry) : references[entry]?.getD 0 ≠ 0 := by
  intro unheld
  exact guarded.counted.not_held unheld (held ▸ Multiset.mem_map_of_mem Tie.held member)

/-- A move of a call leaves guarded what was, and what the call learns by it is guarded too. -/
theorem move {makers : List Key} (guarded : Guarded s.skeleton s.references (x ::ₘ ties) (g ::ₘ grips))
    (sound : Sound s.skeleton makers (g ::ₘ grips)) (move : Move policy clock s g t h news) (covers : h.Covers g')
    (follows : Tie.Follows s x t y g') : Guarded t.skeleton t.references (y ::ₘ ties) (g' ::ₘ grips) := by
  have after : Sound t.skeleton (makers ++ news) (g' ::ₘ grips) := (sound.move move).ease covers
  have binds : BindsMade s.skeleton g t.skeleton g' :=
    ⟨move.bindings.made,fun run made => move.bindings.fresh run (covers.fresh ▸ made),move.bindings.bound⟩
  have here : x ∈ x ::ₘ ties := Multiset.mem_cons_self x ties
  have still : ∀ z ∈ x ::ₘ ties, ∀ p, z.kept = some p → p ∈ t.skeleton.table ∧ t.skeleton.isRetired p.2 = false := by
    intro z member p kept
    obtain ⟨found,working⟩ := guarded.kept z member p kept
    exact move.keeps_listed sound.listed sound.head found working
      (guarded.references_ne_zero member (Tie.held_of_kept kept))
  -- what a tie uses now was used before or is bound now, and what it cleans was cleaned before or unbound just now
  have use : ∀ z ∈ y ::ₘ ties, ∀ p, z.used = some p →
      (∃ z' ∈ x ::ₘ ties, z'.used = some p) ∨ t.skeleton.bound? p.1 = some p.2 := by
    refine Multiset.forall_mem_cons.mpr ⟨?_,fun z member p used => .inl ⟨z,Multiset.mem_cons_of_mem member,used⟩⟩
    intro p used
    exact (follows.used p used).imp_left fun old => ⟨x,here,old⟩
  have clean : ∀ z ∈ y ::ₘ ties, ∀ run, z.cleaned = some run → (∃ z' ∈ x ::ₘ ties, z'.cleaned = some run) ∨
      (g'.taken = some run ∧ ∃ entry, s.skeleton.bound? entry = some run ∧ s.references[entry]?.getD 0 = 0) := by
    refine Multiset.forall_mem_cons.mpr ⟨?_,fun z member run cleaned => .inl ⟨z,Multiset.mem_cons_of_mem member,cleaned⟩⟩
    intro run cleaned
    exact (follows.cleaned run cleaned).imp_left fun old => ⟨x,here,old⟩
  have cleaned : ∀ z ∈ y ::ₘ ties, ∀ run, z.cleaned = some run →
      BoundOnly t.skeleton (g' ::ₘ grips) run fun _ => False := by
    intro z member run cleaned
    rcases clean z member run cleaned with ⟨z',member',old⟩ | ⟨taken,_⟩
    · exact (guarded.cleaned z' member' run old).move binds
    · exact .of_taken after (Multiset.mem_cons_self g' grips) taken
  constructor
  · have counted := guarded.counted
    rw [Multiset.map_cons] at counted ⊢
    exact counted.shift follows.shift
  · refine Multiset.forall_mem_cons.mpr ⟨?_,fun z member => still z (Multiset.mem_cons_of_mem member)⟩
    intro p kept
    rcases follows.kept p kept with old | new
    · exact still x here p old
    · exact new
  · intro z member p used
    rcases use z member p used with ⟨z',member',old⟩ | bound
    · exact (guarded.used z' member' p old).move binds
    · exact .of_bound after bound
  · exact cleaned
  · rintro z member z' member' p run used cleans rfl
    rcases use z member p used with ⟨user,known,old⟩ | bound
    · rcases clean z' member' p.2 cleans with ⟨cleaner,known',old'⟩ | ⟨_,entry,bound,unheld⟩
      · exact guarded.apart user known cleaner known' p p.2 old old' rfl
      · obtain rfl : entry = p.1 := (guarded.used user known p old).bound entry bound
        exact guarded.references_ne_zero known (Tie.held_of_used old) unheld
    · exact (cleaned z' member' p.2 cleans).bound p.1 bound

end Guarded

/-! ### What a round of cleaning up touches -/

/-- An entry that is held, and a run that is not taken out of the way, are left as they were. -/
structure State.Leaves (s t : State) (cleaned : Option Nat) : Prop where
  entries : ∀ entry : Nat, s.references[entry]?.getD 0 ≠ 0 → t.entries[entry]? = s.entries[entry]?
  runs : ∀ run : Nat, cleaned ≠ some run → t.runs[run]? = s.runs[run]?

namespace State.Leaves

variable {cleaned : Option Nat}

theorem same (entries : t.entries = s.entries) (runs : t.runs = s.runs) : s.Leaves t cleaned where
  entries entry _ := by rw [entries]
  runs run _ := by rw [runs]

/-- Something becomes of the run that is taken out of the way. -/
theorem onRun {run : Nat} {f : Run → Run} (entries : t.entries = s.entries) (runs : t.runs = s.runs.modify run f) :
    s.Leaves t (some run) where
  entries entry _ := by rw [entries]
  runs other elsewhere := by
    rw [runs]
    exact List.getElem?_modify_ne _ _ (fun same => elsewhere (congrArg some same))

theorem retire {entry : Nat} (unheld : s.references[entry]?.getD 0 = 0) : s.Leaves (s.retire entry) cleaned where
  entries other held := by
    refine List.getElem?_modify_ne _ _ ?_
    rintro rfl
    exact held unheld
  runs _ _ := rfl

end State.Leaves

theorem Teardown.turn_leaves (s : State) (run : Nat) (phase : Teardown) :
    (phase.turn clock run s).Leads (fun t _ => s.Leaves t (some run)) (fun t _ => s.Leaves t (some run)) := by
  cases phase with
  | start =>
    unfold turn
    dsimp only
    split
    · exact .onRun rfl rfl
    · exact .same rfl rfl
  | terminating process wake =>
    unfold turn
    dsimp only
    split
    · trivial
    · exact .onRun rfl rfl
  | clearing => exact .onRun rfl rfl

/-- A turn of a round of cleaning up touches the entry that it retires, which nobody holds, and the run that it has in
    its hands. -/
theorem Cleanup.turn_leaves (s : State) (phase : Cleanup) :
    (phase.turn policy clock s).Leads (fun t _ => s.Leaves t phase.tie.cleaned)
      (fun t _ => s.Leaves t phase.tie.cleaned) := by
  cases phase with
  | collect => exact .same rfl rfl
  | visiting now waiting removed =>
    cases waiting with
    | nil => exact .same rfl rfl
    | cons next rest =>
      obtain ⟨key,entry⟩ := next
      unfold turn
      dsimp only
      split
      · exact .same rfl rfl
      · rename_i e found
        split
        · rename_i idle
          have unheld : e.references = 0 := eq_of_beq (Bool.and_eq_true_iff.mp (Bool.and_eq_true_iff.mp idle).2).1
          exact .retire (by simp [State.references,found,unheld])
        · exact .same rfl rfl
  | unlisting now key entry run rest removed =>
    unfold turn
    dsimp only
    cases run with
    | none => exact .same rfl rfl
    | some run =>
      dsimp only [State.destroyed]
      split
      · rename_i destroyed
        split at destroyed
        · cases destroyed
        · cases destroyed
          exact .onRun rfl rfl
      · rename_i destroyed
        split at destroyed
        · cases destroyed
          exact .same rfl rfl
        · cases destroyed
  | tearing now run phase rest removed =>
    exact (phase.turn_leaves s run).within (fun _ _ leaves => leaves) (fun _ _ leaves => leaves)

/-! ### Histories -/

/-- The table has an entry under a key, one that is not retired. -/
def State.Lists (s : State) (key : Key) (entry : Nat) : Prop :=
  s.find? key = some entry ∧ ∃ e, s.entries[entry]? = some e ∧ e.isRetired = false

/-- Whether what a lease is about is after some turn as it was before: its entry, the run that was given with it, and
    the run that is bound to the entry. -/
structure Grant.IsSpared (g : Grant) (s t : State) : Prop where
  listed : t.Lists g.demand.key g.lease.entry
  entry : t.entries[g.lease.entry]? = s.entries[g.lease.entry]?
  given : ∀ run, g.lease.run = some run → t.runs[run]? = s.runs[run]?
  bound : ∀ e run, s.entries[g.lease.entry]? = some e → e.run = some run → t.runs[run]? = s.runs[run]?

/-- A lease that a call goes on with. -/
def Call.lease? : Call → Option Grant
  | bind grant _ => some grant
  | acquire .. | mark .. | report .. | cleanUp _ => none

namespace Traffic

variable {policy : Policy} {conduct : Conduct} {w w' : Traffic}

/-- The leases that were given out and not dropped, also those that somebody waits with for a run. -/
def leases (w : Traffic) : Multiset Grant := w.grants + w.calls.filterMap Call.lease?

/-- What the calls on the table and the leases that are out have to do with entries and runs. -/
def ties (w : Traffic) : Multiset Tie := w.calls.map Call.tie + w.grants.map Grant.tie

def IsGuarded (w : Traffic) : Prop := Guarded w.state.skeleton w.state.references w.ties w.grips

theorem tie_mem_of_lease {g : Grant} (out : g ∈ w.leases) : g.tie ∈ w.ties := by
  rcases Multiset.mem_add.mp out with given | going
  · exact Multiset.mem_add.mpr (.inr (Multiset.mem_map_of_mem Grant.tie given))
  · obtain ⟨call,member,same⟩ := (Multiset.mem_filterMap Call.lease? w.calls).mp going
    cases call with
    | bind grant phase =>
      cases same
      exact Multiset.mem_add.mpr (.inl (Multiset.mem_map_of_mem Call.tie member))
    | _ => cases same

/-- A call begins that has nothing to do with entries and runs. -/
theorem IsGuarded.join (guarded : w.IsGuarded) (call : Call) (free : call.tie = .free) (unmade : call.grip.fresh = none) :
    IsGuarded { w with calls := call ::ₘ w.calls } := by
  simp only [IsGuarded,ties,grips,Multiset.map_cons,Multiset.cons_add,free]
  exact Guarded.join guarded unmade

/-- A call comes from where it was to where it is, or to its end. -/
theorem IsGuarded.turn (sound : w.IsSound) (guarded : w.IsGuarded) {call : Call} {calls : Multiset Call}
    (going : w.calls = call ::ₘ calls) {t : State} {y : Tie} {g' : Grip}
    (effect : Effect policy w.clock w.state call.grip t g') (follows : Tie.Follows w.state call.tie t y g') :
    Guarded t.skeleton t.references (y ::ₘ (calls.map Call.tie + w.grants.map Grant.tie))
      (g' ::ₘ (calls.map Call.grip + w.grants.map (·.lease.grip))) := by
  simp only [IsSound,IsGuarded,ties,grips,going,Multiset.map_cons,Multiset.cons_add] at sound guarded
  obtain ⟨move,covers⟩ := effect
  exact guarded.move sound move covers follows

theorem IsSound.fits_of_going (sound : w.IsSound) {call : Call} {calls : Multiset Call}
    (going : w.calls = call ::ₘ calls) : Fits w.state.skeleton w.makers call.grip := by
  have member : call ∈ w.calls := going ▸ Multiset.mem_cons_self call calls
  exact sound.fits _ (Multiset.mem_add.mpr (.inl (Multiset.mem_map_of_mem Call.grip member)))

theorem guarded_step (sound : w.IsSound) (guarded : w.IsGuarded) (step : Step policy conduct w w') :
    w'.IsGuarded := by
  cases step with
  | ask demand asked => exact guarded.join _ rfl rfl
  | bind grant grants held =>
    have tie : Call.tie (.bind grant .begin) = grant.tie := rfl
    simp only [IsGuarded,ties,grips,held,Multiset.map_cons,Multiset.add_cons,Multiset.cons_add,tie,
      Call.grip_bind_begin] at guarded ⊢
    exact guarded
  | drop grant grants held =>
    simp only [IsSound,IsGuarded,ties,grips,held,Multiset.map_cons,Multiset.add_cons] at sound guarded
    have rests : Move policy w.clock w.state grant.lease.grip (w.state.drop w.clock grant.lease) grant.lease.grip [] :=
      .rests (w.state.skeleton_letGo w.clock grant.lease.entry)
    have follows : Tie.Follows w.state grant.tie (w.state.drop w.clock grant.lease) .free grant.lease.grip := by
      refine .free ?_
      rw [State.drop,State.references_letGo]
      exact .lets
    exact (guarded.move sound rests ⟨.inl rfl,.inl rfl,rfl,rfl,rfl,fun _ member => member⟩ follows).part
  | mark grant held index highest marked =>
    refine guarded.join _ rfl ?_
    simp only [Call.grip,Served.grip]
    cases grant.lease.run <;> rfl
  | report run report => exact guarded.join _ rfl rfl
  | cleanUp => exact guarded.join _ rfl rfl
  | goesOn call calls going turned =>
    have effect := @Call.turn_effect policy w.clock w.state call
    have follows := @Call.turn_follows policy w.clock w.state w.makers sound.listed call (sound.fits_of_going going)
    rw [turned] at effect follows
    have moved := guarded.turn sound going effect follows
    simpa only [IsGuarded,ties,grips,Multiset.map_cons,Multiset.cons_add] using moved
  | @ends call calls going s given turned =>
    have effect := @Call.turn_effect policy w.clock w.state call
    have follows := @Call.turn_follows policy w.clock w.state w.makers sound.listed call (sound.fits_of_going going)
    rw [turned] at effect follows
    have moved := guarded.turn sound going effect follows
    cases given with
    | none => simpa [IsGuarded,ties,grips] using moved.part
    | some grant =>
      simp only [IsGuarded,ties,grips,Option.elim,Multiset.singleton_add,Multiset.map_cons,Multiset.add_cons]
      exact moved
  | task number turned =>
    have skeleton := w.state.skeleton_taskTurn sound.listed.working turned
    have references := w.state.references_of_entries (w.state.beside_taskTurn sound.listed.working turned).entries
    simpa only [IsGuarded,ties,grips,skeleton,references] using guarded
  | happen event =>
    simpa only [IsGuarded,ties,grips,State.skeleton_event,
      w.state.references_of_entries (w.state.beside_event event).entries] using guarded
  | wait clock millis nanos => exact guarded

/-- In every history, what somebody holds or uses is kept from being cleaned up. -/
theorem guarded_of_reachable (reached : w.Reachable policy conduct) : w.IsGuarded := by
  induction reached with
  | refl => simpa [IsGuarded,ties,grips,State.references] using Guarded.empty
  | tail before step ih => exact guarded_step (sound_of_reachable before) ih step

/-- The entry of a lease that is out is in the table. -/
theorem listed_of_lease (reached : w.Reachable policy conduct) {g : Grant} (out : g ∈ w.leases) :
    w.state.Lists g.demand.key g.lease.entry := by
  have listed := (sound_of_reachable reached).listed
  obtain ⟨found,working⟩ := (guarded_of_reachable reached).kept g.tie (tie_mem_of_lease out) _ rfl
  have inside : g.lease.entry < w.state.entries.length := by
    simpa [State.skeleton] using listed.table _ found
  refine ⟨State.find?_of_mem listed.keys found,_,List.getElem?_eq_getElem inside,?_⟩
  simpa [Skeleton.isRetired,State.skeleton,inside] using working

/-- A turn of a round of cleaning up leaves what the leases are about as it was. -/
theorem spared_of_leaves (reached : w.Reachable policy conduct) {phase : Cleanup} (going : .cleanUp phase ∈ w.calls)
    (after : w'.Reachable policy conduct) (leases : w'.leases = w.leases)
    (leaves : w.state.Leaves w'.state phase.tie.cleaned) {g : Grant} (out : g ∈ w.leases) :
    g.IsSpared w.state w'.state := by
  have guarded := guarded_of_reachable reached
  have known := tie_mem_of_lease out
  have cleaning : phase.tie ∈ w.ties := Multiset.mem_add.mpr (.inl (Multiset.mem_map_of_mem Call.tie going))
  constructor
  · exact listed_of_lease after (leases ▸ out)
  · exact leaves.entries _ (guarded.references_ne_zero known rfl)
  · intro run given
    refine leaves.runs run ?_
    intro cleaned
    have used : g.tie.used = some (g.lease.entry,run) := by simp [Grant.tie,Tie.used,given]
    exact guarded.apart _ known _ cleaning _ _ used cleaned rfl
  · intro e run found bound
    refine leaves.runs run ?_
    intro cleaned
    refine (guarded.cleaned _ cleaning run cleaned).bound g.lease.entry ?_
    rw [State.bound?_skeleton,found]
    exact bound

/-- Whatever else is asked for at the same time, the entry of a lease that is out is in the table and not retired, a
    turn of a round of cleaning up leaves it and its run as they were, and so it is for a lease that is just given
    out. -/
theorem cleaning_up_spares_leases (reached : w.Reachable policy conduct) :
    (∀ g ∈ w.leases, w.state.Lists g.demand.key g.lease.entry) ∧
      (∀ phase, .cleanUp phase ∈ w.calls → (phase.turn policy w.clock w.state).Leads
        (fun s _ => ∀ g ∈ w.leases, g.IsSpared w.state s) (fun s _ => ∀ g ∈ w.leases, g.IsSpared w.state s)) ∧
      ∀ call ∈ w.calls, ∀ s g, call.turn policy w.clock w.state = .ends s (some g) →
        s.Lists g.demand.key g.lease.entry := by
  refine ⟨fun g out => listed_of_lease reached out,?_,?_⟩
  · intro phase going
    obtain ⟨calls,others⟩ := Multiset.exists_cons_of_mem going
    have leases : w.leases = w.grants + calls.filterMap Call.lease? := by
      rw [Traffic.leases,others,Multiset.filterMap_cons_none _ _ rfl]
    have leaves := @Cleanup.turn_leaves policy w.clock w.state phase
    cases turned : phase.turn policy w.clock w.state with
    | blocked wake => trivial
    | goesOn s next =>
      rw [turned] at leaves
      have turned : (Call.cleanUp phase).turn policy w.clock w.state = .goesOn s (.cleanUp next) := by
        simp only [Call.turn,turned,Turn.within]
      have after := reached.tail (.goesOn _ calls others turned)
      intro g out
      refine spared_of_leaves reached going after ?_ leaves out
      rw [leases,Traffic.leases,Multiset.filterMap_cons_none _ _ rfl]
    | ends s removed =>
      rw [turned] at leaves
      have turned : (Call.cleanUp phase).turn policy w.clock w.state = .ends s none := by
        simp only [Call.turn,turned,Turn.within]
      have after := reached.tail (.ends _ calls others turned)
      intro g out
      refine spared_of_leaves reached going after ?_ leaves out
      rw [leases,Traffic.leases,Option.elim,Multiset.zero_add]
  · intro call going s g turned
    obtain ⟨calls,others⟩ := Multiset.exists_cons_of_mem going
    have after := reached.tail (.ends _ calls others turned)
    exact listed_of_lease after (Multiset.mem_add.mpr (.inl (by simp)))

/-- A session was idle when a round of cleaning up listed it, and is in use again when the round comes to look at
    it. -/
theorem lease_after_listing_is_spared :
    ∃ w : Traffic, w.Reachable default .free ∧ .cleanUp (.visiting 0 [(default,0)] 0) ∈ w.calls ∧
      (∃ g ∈ w.leases, g.lease = ⟨0,some 0,none⟩) ∧ (∀ g ∈ w.leases, w.state.Lists g.demand.key g.lease.entry) ∧
      (Cleanup.turn default w.clock (.visiting 0 [(default,0)] 0) w.state).Leads
        (fun s _ => ∀ g ∈ w.leases, g.IsSpared w.state s) (fun s _ => ∀ g ∈ w.leases, g.IsSpared w.state s) := by
  have asked : Reachable default .free _ := .tail .refl (.ask firstRequest trivial)
  have found := asked.tail (.goesOn _ 0 rfl rfl)
  have entered := found.tail (.goesOn _ 0 rfl rfl)
  have inside := entered.tail (.goesOn _ 0 rfl rfl)
  have unbound := inside.tail (.goesOn _ 0 rfl rfl)
  have rooted := unbound.tail (.goesOn _ 0 rfl rfl)
  have made := rooted.tail (.goesOn _ 0 rfl rfl)
  have served := made.tail (.ends _ 0 rfl rfl)
  have dropped := served.tail (.drop _ 0 rfl)
  have cleaning := dropped.tail .cleanUp
  have listed := cleaning.tail (.goesOn _ 0 rfl rfl)
  have again := listed.tail (.ask headerRequest trivial)
  have known := again.tail
    (.goesOn (.acquire headerRequest .lookup) (.cleanUp (.visiting 0 [(default,0)] 0) ::ₘ 0) rfl rfl)
  have waits := known.tail (.goesOn _ (.cleanUp (.visiting 0 [(default,0)] 0) ::ₘ 0) rfl rfl)
  have leased := waits.tail (.ends _ (.cleanUp (.visiting 0 [(default,0)] 0) ::ₘ 0) rfl rfl)
  obtain ⟨lists,spares,_⟩ := cleaning_up_spares_leases leased
  have going := Multiset.mem_cons_self (Call.cleanUp (.visiting 0 [(default,0)] 0)) 0
  have given := Multiset.mem_singleton_self (⟨headerRequest,⟨0,some 0,none⟩⟩ : Grant)
  exact ⟨_,leased,going,⟨_,Multiset.mem_add.mpr (.inl (Multiset.mem_add.mpr (.inl given))),rfl⟩,lists,spares _ going⟩

end Traffic
end Playout.Playback
