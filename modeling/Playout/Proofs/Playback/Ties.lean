import Playout.Proofs.Playback.References

/-!
What the calls have to do with entries and runs (`Tie`). A request for a session
counts as a reference of its entry from when it asks for the lock, and what it
comes to, a lease, counts on in its place; no other call counts. Under the lock of
an entry a request learns that the entry is in the table, and which run is bound
there. A round of cleaning up has a run in its hands from the retirement of its
entry on. What a turn of a call makes of its tie is said once for all calls
(`Tie.Follows`).
-/
namespace Playout.Playback

/-- What a call or a lease has to do with entries and runs. -/
inductive Tie where
  | free
  /-- It holds an entry. -/
  | waits (entry : Nat)
  /-- It holds an entry that it has found in the table, and may know the run that was bound there. -/
  | keeps (key : Key) (entry : Nat) (run : Option Nat)
  /-- It takes a run out of the way that was bound to an entry nobody held. -/
  | cleans (run : Nat)

namespace Tie

/-- The entry that is held. -/
def held : Tie → Option Nat
  | waits entry | keeps _ entry _ => some entry
  | free | cleans _ => none

/-- The entry that was found in the table, with its key. -/
def kept : Tie → Option (Key × Nat)
  | keeps key entry _ => some (key,entry)
  | free | waits _ | cleans _ => none

/-- The run that is used, with its entry. -/
def used : Tie → Option (Nat × Nat)
  | keeps _ entry run => run.map (entry,·)
  | free | waits _ | cleans _ => none

/-- The run that is taken out of the way. -/
def cleaned : Tie → Option Nat
  | cleans run => some run
  | free | waits _ | keeps .. => none

theorem held_of_kept {x : Tie} {p : Key × Nat} (kept : x.kept = some p) : x.held = some p.2 := by
  cases x with
  | keeps key entry run =>
    cases kept
    rfl
  | _ => cases kept

theorem held_of_used {x : Tie} {p : Nat × Nat} (used : x.used = some p) : x.held = some p.1 := by
  cases x with
  | keeps key entry run =>
    obtain ⟨_,_,rfl⟩ := Option.map_eq_some_iff.mp used
    rfl
  | _ => cases used

end Tie

def Grant.tie (g : Grant) : Tie := .keeps g.demand.key g.lease.entry g.lease.run

/-- What a request for a session leaves. -/
def tieOf (demand : Demand) : Result Lease → Tie
  | .ok lease => Grant.tie ⟨demand,lease⟩
  | .error _ => .free

def Acquire.tie (demand : Demand) : Acquire → Tie
  | lookup | approaching _ | retrying => .free
  | locking entry _ => .waits entry
  | listing entry _ run | listed entry _ run _ => .keeps demand.key entry (some run)
  | starting entry _ _ => .keeps demand.key entry none

def Cleanup.tie : Cleanup → Tie
  | collect | visiting .. => .free
  | unlisting _ _ _ run _ _ => run.elim .free .cleans
  | tearing _ run _ _ _ => .cleans run

def Call.tie : Call → Tie
  | acquire demand phase => phase.tie demand
  | bind grant _ => grant.tie
  | mark .. | report .. => .free
  | cleanUp phase => phase.tie

/-- What the end of a call leaves. -/
def tieLeftBy (given : Option Grant) : Tie := given.elim .free Grant.tie

/-- How a tie follows another one when a call has taken a state to another one and has something in its hands. What
    is new is true of the state that the call leaves, save that a run which is going to be cleaned was bound before to
    an entry without references. -/
structure Tie.Follows (s : State) (x : Tie) (t : State) (y : Tie) (g : Grip) : Prop where
  shift : Shift x.held y.held s.references t.references
  kept : ∀ p, y.kept = some p → x.kept = some p ∨ (p ∈ t.skeleton.table ∧ t.skeleton.isRetired p.2 = false)
  used : ∀ p, y.used = some p → x.used = some p ∨ t.skeleton.bound? p.1 = some p.2
  cleaned : ∀ run, y.cleaned = some run → x.cleaned = some run ∨ (g.taken = some run ∧
    ∃ entry, s.skeleton.bound? entry = some run ∧ s.references[entry]?.getD 0 = 0)

namespace Tie.Follows

variable {s t : State} {x : Tie} {g : Grip} {key : Key} {entry : Nat} {run : Option Nat}

theorem same (references : t.references = s.references) : Follows s x t x g where
  shift := by
    rw [references]
    exact .stays
  kept _ kept := .inl kept
  used _ used := .inl used
  cleaned _ cleaned := .inl cleaned

theorem free (shift : Shift x.held none s.references t.references) : Follows s x t .free g where
  shift := shift
  kept _ kept := by cases kept
  used _ used := by cases used
  cleaned _ cleaned := by cases cleaned

theorem keeps (held : x.held = some entry) (references : t.references = s.references)
    (kept : x.kept = some (key,entry) ∨ ((key,entry) ∈ t.skeleton.table ∧ t.skeleton.isRetired entry = false))
    (used : ∀ r, run = some r → x.used = some (entry,r) ∨ t.skeleton.bound? entry = some r) :
    Follows s x t (.keeps key entry run) g where
  shift := by
    rw [references,held]
    exact .stays
  kept p is := by
    cases is
    exact kept
  used p is := by
    obtain ⟨r,known,rfl⟩ := Option.map_eq_some_iff.mp is
    exact used r known
  cleaned _ cleaned := by cases cleaned

end Tie.Follows

/-! ### Requests for sessions -/

variable {policy : Policy} {clock : Clock}

theorem State.liveRun?_eq {s : State} {e : Entry} {run : Nat} (live : s.liveRun? e = some run) : e.run = some run :=
  (Option.filter_eq_some_iff.mp live).1

theorem State.bound?_of_locked {s : State} {entry ticket : Nat} {e : Entry} (locked : s.locked? entry ticket = some e) :
    s.skeleton.bound? entry = e.run := by
  simp only [locked?,Option.filter_eq_some_iff] at locked
  rw [bound?_skeleton,locked.1]
  rfl

/-- The start of a run holds on to what the call holds, and binds the run that it comes to. -/
theorem Start.turn_binds (s : State) (order : Order) (inside : order.entry < s.skeleton.bindings.length) (phase : Start) :
    (phase.turn policy order s).Leads (fun t _ => t.references = s.references)
      (fun t started => t.references = s.references ∧
        ∀ run, started.outcome = .ok run → t.skeleton.bound? order.entry = some run) := by
  cases phase with
  | begin => exact s.references_unbindRun order.entry
  | makeRoot replaced =>
    unfold turn
    dsimp only
    split
    · exact ⟨rfl,fun _ failed => by cases failed⟩
    · rfl
  | makeDirectory replaced =>
    unfold turn
    dsimp only
    split
    · exact ⟨rfl,fun _ failed => by cases failed⟩
    · exact s.references_of_entries rfl
  | launch replaced run =>
    unfold turn
    dsimp only
    split
    · rename_i t launched
      refine ⟨(t.references_bindRun _ _ _).trans (s.references_of_entries (s.entries_launch launched)),?_⟩
      intro run' outcome
      cases outcome
      have same := s.skeleton_launch launched
      rw [← same] at inside
      rw [State.skeleton_bindRun]
      exact (Skeleton.bound?_bind_some inside run order.entry).trans (if_pos rfl)
    · exact s.references_of_entries rfl
  | discard replaced run why => exact ⟨s.references_of_entries rfl,fun _ failed => by cases failed⟩

theorem State.bound?_settled (s : State) (entry ticket : Nat) (started : Started) (other : Nat) :
    ((s.unlock entry ticket).replace started).skeleton.bound? other = s.skeleton.bound? other := by
  rw [skeleton_replace,skeleton_unlock]
  cases started.replaced <;> rfl

/-- What a start that has come to its end leaves, once its ticket is given back: a lease of the run that is bound
    now, or nothing. -/
theorem Start.settled_follows (clock : Clock) {s t : State} {x : Tie} {key : Key} {entry : Nat} (ticket : Nat)
    {started : Started}
    (kept : x.kept = some (key,entry)) (references : t.references = s.references)
    (binds : ∀ run, started.outcome = .ok run → t.skeleton.bound? entry = some run) :
    (∀ run, started.outcome = .ok run → ∀ g,
      Tie.Follows s x ((t.unlock entry ticket).replace started) (.keeps key entry (some run)) g) ∧
    ∀ g, Tie.Follows s x (((t.unlock entry ticket).replace started).letGo clock entry) .free g := by
  have held : x.held = some entry := Tie.held_of_kept kept
  have counts : ((t.unlock entry ticket).replace started).references = s.references := by
    rw [State.references_replace,State.references_unlock,references]
  constructor
  · intro run outcome g
    refine .keeps held counts (.inl kept) ?_
    intro r known
    cases known
    exact .inr ((t.bound?_settled entry ticket started entry).trans (binds run outcome))
  · intro g
    refine .free ?_
    rw [State.references_letGo,counts,held]
    exact .lets

theorem Acquire.settle_follows {s t : State} {x : Tie} {demand : Demand} {entry ticket : Nat} {started : Started}
    (kept : x.kept = some (demand.key,entry)) (references : t.references = s.references)
    (binds : ∀ run, started.outcome = .ok run → t.skeleton.bound? entry = some run) :
    (settle clock entry ticket t started).Leads (fun _ _ => False)
      (fun u r => ∀ g, Tie.Follows s x u (tieOf demand r) g) := by
  obtain ⟨bound,dropped⟩ := Start.settled_follows clock ticket kept references binds
  unfold settle
  cases outcome : started.outcome with
  | ok run => exact bound run outcome
  | error why => exact dropped

theorem Skeleton.onLock_id (k : Skeleton) (entry : Nat) : k.onLock entry id = k := by
  rw [onLock,List.modify_id]

/-- The state where the run of an entry goes on being used, and a ticket is given back. -/
def State.reused (s : State) (entry ticket index : Nat) : State :=
  (s.onEntry entry fun e => { e with lastRequested := index }).unlock entry ticket

theorem State.skeleton_reused (s : State) (entry ticket index : Nat) :
    (s.reused entry ticket index).skeleton = s.skeleton.onLock entry (·.leave ticket) := by
  have noted : (s.onEntry entry fun e => { e with lastRequested := index }).skeleton = s.skeleton := by
    apply skeleton_onEntry <;> exact fun _ => rfl
  rw [reused,skeleton_unlock,noted]

theorem State.references_reused (s : State) (entry ticket index : Nat) :
    (s.reused entry ticket index).references = s.references := by
  rw [reused,references_unlock]
  apply references_onEntry
  exact fun _ => rfl

/-- A request that has come to the lock of its entry. -/
theorem Acquire.decide_follows (s : State) (demand : Demand) {entry ticket : Nat} {e : Entry}
    (known : (demand.key,entry) ∈ s.skeleton.table ∨ s.skeleton.isRetired entry = true)
    (locked : s.locked? entry ticket = some e) :
    (decide policy clock demand s entry ticket e).Leads
      (fun t next => ∀ g, Tie.Follows s (.waits entry) t (next.tie demand) g)
      (fun t r => ∀ g, Tie.Follows s (.waits entry) t (tieOf demand r) g) := by
  unfold decide
  split
  · intro g
    refine .free ?_
    rw [State.references_letGo,State.references_unlock]
    exact .lets
  · rename_i listed
    have working : s.skeleton.isRetired entry = false := by
      rw [State.isRetired_of_locked locked]
      simpa using listed
    have found : (demand.key,entry) ∈ s.skeleton.table := by
      rcases known with found | gone
      · exact found
      · rw [working] at gone
        cases gone
    have keeps {t : State} {run : Option Nat} {f : Lock → Lock} (freed : t.skeleton = s.skeleton.onLock entry f)
        (references : t.references = s.references) (bound : ∀ r, run = some r → e.run = some r) (g : Grip) :
        Tie.Follows s (.waits entry) t (.keeps demand.key entry run) g := by
      refine .keeps rfl references (.inr ?_) ?_
      · rw [freed]
        exact ⟨found,working⟩
      · intro r known
        rw [freed]
        exact .inr ((State.bound?_of_locked locked).trans (bound r known))
    have here : s.skeleton = s.skeleton.onLock entry id := (s.skeleton.onLock_id entry).symm
    have left := s.skeleton_unlock entry ticket
    have counts := s.references_unlock entry ticket
    split
    · rename_i live
      exact keeps left counts (fun r same => same ▸ State.liveRun?_eq live)
    · exact keeps left counts (fun _ none => by cases none)
    · rename_i bound
      split
      · split
        · exact keeps here rfl (fun r same => same ▸ bound)
        · exact keeps (s.skeleton_reused entry ticket (index demand)) (s.references_reused entry ticket (index demand))
            (fun r same => same ▸ bound)
      · exact keeps here rfl (fun _ none => by cases none)
    · exact keeps here rfl (fun _ none => by cases none)

theorem Acquire.turn_follows (s : State) {makers : List Key} (listed : Listed s.skeleton makers) (demand : Demand)
    (phase : Acquire) (fits : Fits s.skeleton makers (phase.grip demand)) :
    (phase.turn policy clock demand s).Leads
      (fun t next => ∀ g, Tie.Follows s (phase.tie demand) t (next.tie demand) g)
      (fun t r => ∀ g, Tie.Follows s (phase.tie demand) t (tieOf demand r) g) := by
  cases phase with
  | lookup => exact fun g => .free (enter_shift s clock demand.key)
  | approaching entry =>
    intro g
    have inside : entry < s.references.length := by
      have given := fits.given entry rfl
      rw [State.references,List.length_map]
      simpa [State.skeleton] using given
    exact {
      shift := by
        change Shift none (some entry) s.references ((s.hold entry).askLock entry).references
        rw [State.references_askLock,State.references_hold]
        exact .takes inside
      kept := fun _ kept => by cases kept
      used := fun _ used => by cases used
      cleaned := fun _ cleaned => by cases cleaned }
  | locking entry ticket =>
    unfold turn
    dsimp only
    split
    · trivial
    · rename_i e locked
      exact decide_follows s demand (fits.known demand entry rfl rfl) locked
  | retrying => exact fun g => .same rfl
  | listing entry ticket run => exact fun g => .same rfl
  | listed entry ticket run holds =>
    unfold turn
    dsimp only
    split
    · exact fun g => .keeps rfl (s.references_reused entry ticket (index demand)) (.inl rfl)
        (fun r same => .inl (congrArg (Option.map (entry,·)) same))
    · exact fun g => .keeps rfl rfl (.inl rfl) (fun _ none => by cases none)
  | starting entry ticket phase =>
    have grip : (phase.grip demand entry ticket).entry = some entry := by cases phase <;> rfl
    have inside : entry < s.skeleton.bindings.length := listed.bindings ▸ fits.given entry grip
    refine (phase.turn_binds s (order demand entry (index demand)) inside).within (fun _ _ same g => .same same) ?_
    rintro t started ⟨references,binds⟩
    exact Turn.Leads.mono (settle_follows rfl references binds) (fun _ _ no => no.elim) (fun _ _ follows => follows)

/-! ### The other calls -/

theorem Bind.settle_follows {s t : State} {grant : Grant} {ticket : Nat} {started : Started}
    (references : t.references = s.references)
    (binds : ∀ run, started.outcome = .ok run → t.skeleton.bound? grant.lease.entry = some run) :
    (settle clock grant.lease ticket t started).Leads (fun _ _ => False)
      (fun u r => ∀ g, Tie.Follows s grant.tie u (tieOf grant.demand r) g) := by
  have kept : grant.tie.kept = some (grant.demand.key,grant.lease.entry) := rfl
  obtain ⟨bound,dropped⟩ := Start.settled_follows clock ticket kept references binds
  unfold settle
  cases outcome : started.outcome with
  | ok run => exact bound run outcome
  | error why => exact dropped

theorem Bind.decide_follows (s : State) (grant : Grant) (demand : Demand) {deadline calls ticket : Nat} {e : Entry}
    (locked : s.locked? grant.lease.entry ticket = some e) :
    (decide clock grant.lease demand s deadline calls ticket e).Leads
      (fun t _ => ∀ g, Tie.Follows s grant.tie t grant.tie g)
      (fun t r => ∀ g, Tie.Follows s grant.tie t (tieOf grant.demand r) g) := by
  have counts := s.references_unlock grant.lease.entry ticket
  unfold decide
  dsimp only
  split
  · intro g
    refine .free ?_
    rw [State.drop,State.references_letGo,State.references_unlock]
    exact .lets
  · split
    · rename_i live
      intro g
      refine .keeps rfl counts (.inl rfl) ?_
      intro r same
      rw [State.skeleton_unlock]
      exact .inr ((State.bound?_of_locked locked).trans (same ▸ State.liveRun?_eq live))
    · split
      · exact fun g => .same rfl
      · exact fun g => .same counts

theorem Bind.turn_follows (s : State) {makers : List Key} (listed : Listed s.skeleton makers) (grant : Grant)
    (phase : Bind) (fits : Fits s.skeleton makers (phase.grip grant.lease)) :
    (phase.turn policy clock grant.lease s).Leads (fun t _ => ∀ g, Tie.Follows s grant.tie t grant.tie g)
      (fun t r => ∀ g, Tie.Follows s grant.tie t (tieOf grant.demand r) g) := by
  unfold turn
  cases pending : grant.lease.pending with
  | none => exact fun g => .same rfl
  | some demand =>
    cases phase with
    | begin => exact fun g => .same rfl
    | approaching deadline => exact fun g => .same (s.references_askLock grant.lease.entry)
    | locking deadline calls ticket =>
      dsimp only
      split
      · trivial
      · rename_i e locked
        exact decide_follows s grant demand locked
    | waiting deadline calls =>
      dsimp only
      split
      · trivial
      · exact fun g => .same rfl
    | starting ticket first phase =>
      simp only [grip,pending,gripOf] at fits
      have grip : (phase.grip demand grant.lease.entry ticket).entry = some grant.lease.entry := by cases phase <;> rfl
      have inside : grant.lease.entry < s.skeleton.bindings.length := listed.bindings ▸ fits.given _ grip
      refine (phase.turn_binds s (Acquire.order demand grant.lease.entry first) inside).within
        (fun _ _ same g => .same same) ?_
      rintro t started ⟨references,binds⟩
      exact Turn.Leads.mono (settle_follows references binds) (fun _ _ no => no.elim) (fun _ _ follows => follows)

theorem Served.turn_references (s : State) (lease : Lease) (index : Nat) (highest : Option Nat) (phase : Served) :
    (phase.turn policy lease index highest s).Leads (fun t _ => t.references = s.references)
      (fun t _ => t.references = s.references) := by
  unfold turn
  cases lease.run with
  | none => exact rfl
  | some run =>
    cases phase with
    | begin => exact s.references_askLock lease.entry
    | locking ticket =>
      dsimp only
      split
      · trivial
      · split
        · refine (State.references_onEntry _ ?_ _).trans (s.references_unlock lease.entry ticket)
          exact fun _ => rfl
        · exact s.references_unlock lease.entry ticket
    | noted lastServed =>
      dsimp only
      split
      · exact s.references_of_entries (s.beside_signalRun run false .throttled .running).entries
      · rfl

theorem Feedback.turn_references (s : State) (id : RunId) (report : Encoder.Report) (phase : Feedback) :
    (phase.turn policy id report s).Leads (fun t _ => t.references = s.references)
      (fun t _ => t.references = s.references) := by
  cases phase with
  | lookup =>
    unfold turn
    dsimp only
    split
    · rfl
    · exact s.references_askLock _
  | locking run entry ticket =>
    unfold turn
    dsimp only
    split
    · trivial
    · split <;> exact s.references_unlock entry ticket
  | recording run lastServed =>
    unfold turn
    dsimp only
    split <;> exact s.references_of_entries rfl
  | listing run lastServed => exact s.references_of_entries rfl
  | listed run lastServed available =>
    unfold turn
    dsimp only
    split
    · split
      · exact s.references_of_entries (s.beside_signalRun run true .running .throttled).entries
      · rfl
    · rfl

theorem Cleanup.turn_follows (s : State) (phase : Cleanup) :
    (phase.turn policy clock s).Leads (fun t next => Tie.Follows s phase.tie t next.tie next.grip)
      (fun t _ => Tie.Follows s phase.tie t .free {}) := by
  cases phase with
  | collect => exact .same rfl
  | visiting now waiting removed =>
    cases waiting with
    | nil => exact .same rfl
    | cons next rest =>
      obtain ⟨key,entry⟩ := next
      unfold turn
      dsimp only
      split
      · exact .same rfl
      · rename_i e found
        split
        · rename_i idle
          have unheld : e.references = 0 := eq_of_beq (Bool.and_eq_true_iff.mp (Bool.and_eq_true_iff.mp idle).2).1
          have counts : (s.retire entry).references = s.references := s.references_retire entry
          exact {
            shift := by
              change Shift none (Tie.held (e.run.elim .free .cleans)) s.references (s.retire entry).references
              rw [counts]
              cases e.run <;> exact .stays
            kept := by
              intro p kept
              have kept : Tie.kept (e.run.elim .free .cleans) = some p := kept
              cases bound : e.run <;> rw [bound] at kept <;> cases kept
            used := by
              intro p used
              have used : Tie.used (e.run.elim .free .cleans) = some p := used
              cases bound : e.run <;> rw [bound] at used <;> cases used
            cleaned := by
              intro run cleaned
              have cleaned : Tie.cleaned (e.run.elim .free .cleans) = some run := cleaned
              have bound : e.run = some run := by
                cases bound : e.run <;> rw [bound] at cleaned <;> cases cleaned
                rfl
              refine .inr ⟨bound,entry,?_,?_⟩
              · rw [s.bound?_skeleton,found]
                exact bound
              · simp [State.references,found,unheld] }
        · exact .same rfl
  | unlisting now key entry run rest removed =>
    unfold turn
    dsimp only
    cases run with
    | none => exact .same (s.references_of_entries rfl)
    | some run =>
      dsimp only
      have entries := (State.beside_destroyed { s with
        table := s.table.filter (· ≠ (key,entry)), owners := s.owners.filter (·.1 != run) } run).entries
      split
      · rename_i t phase destroyed
        rw [destroyed] at entries
        exact .same (s.references_of_entries entries)
      · rename_i t destroyed
        rw [destroyed] at entries
        have counts : t.references = s.references := s.references_of_entries entries
        refine .free ?_
        rw [counts]
        exact .stays
  | tearing now run phase rest removed =>
    refine (s.teardown_beside clock run phase).within
      (fun _ _ beside => .same (s.references_of_entries beside.entries)) ?_
    intro t _ beside
    refine .free ?_
    rw [s.references_of_entries beside.entries]
    exact .stays

/-- Every turn of a call makes its tie follow. -/
theorem Call.turn_follows (s : State) {makers : List Key} (listed : Listed s.skeleton makers) (call : Call)
    (fits : Fits s.skeleton makers call.grip) :
    (call.turn policy clock s).Leads (fun t next => Tie.Follows s call.tie t next.tie next.grip)
      (fun t given => Tie.Follows s call.tie t (tieLeftBy given) (leftBy given)) := by
  have granted {t : State} {x : Tie} {demand : Demand} {r : Result Lease}
      (follows : ∀ g, Tie.Follows s x t (tieOf demand r) g) :
      (Call.granted demand t r).Leads (fun _ _ => False)
        (fun t given => Tie.Follows s x t (tieLeftBy given) (leftBy given)) := by
    cases r with
    | ok lease => exact follows _
    | error why => exact follows _
  cases call with
  | acquire demand phase =>
    exact Turn.Leads.within (phase.turn_follows s listed demand fits) (fun _ _ follows => follows _)
      (fun _ _ follows => Turn.Leads.mono (granted follows) (fun _ _ no => no.elim) (fun _ _ follows => follows))
  | bind grant phase =>
    exact Turn.Leads.within (phase.turn_follows s listed grant fits) (fun _ _ follows => follows _)
      (fun _ _ follows => Turn.Leads.mono (granted follows) (fun _ _ no => no.elim) (fun _ _ follows => follows))
  | mark lease index highest phase =>
    exact Turn.Leads.within (phase.turn_references s lease index highest) (fun _ _ kept => .same kept)
      (fun _ _ kept => .same kept)
  | report id found phase =>
    exact Turn.Leads.within (phase.turn_references s id found) (fun _ _ kept => .same kept)
      (fun _ _ kept => .same kept)
  | cleanUp phase =>
    exact Turn.Leads.within (phase.turn_follows s) (fun _ _ follows => follows) (fun _ _ follows => follows)

end Playout.Playback
