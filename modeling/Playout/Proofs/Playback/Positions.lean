import Playout.Proofs.Playback.Asides
import Playout.Proofs.Playback.IdleCleanup

/-!
Where the players are. A log is kept of what sessions were asked for (`Tracked`): each request
for a segment that comes to a lease, and the first segment of each run that a lease for a header
starts. What an entry notes as asked for is the last thing in the log about its session, as long
as a run is bound there (`IsTracked`).
-/
namespace Playout.Playback

/-- The segment that a demand asks its session for. -/
def Demand.aim? (demand : Demand) : Option (Key × Nat) :=
  match demand.request with
  | .header => none
  | .segment index => some (demand.key,index)

/-- What a call asks a session for, if it comes to a lease now: a request for a segment asks for that segment, and who
    starts a run asks for the first segment of the run. -/
def Call.aim? : Call → Option (Key × Nat)
  | acquire demand (.listed ..) | acquire demand (.starting ..) => some (demand.key,Acquire.index demand)
  | acquire demand _ => demand.aim?
  | bind grant (.starting _ first _) => grant.lease.pending.map fun demand => (demand.key,first)
  | bind .. | mark .. | report .. | cleanUp _ => none

/-- What a session was asked for last; the log begins with the latest. -/
def lastAsked? (log : List (Key × Nat)) (key : Key) : Option Nat := (log.find? (·.1 = key)).map (·.2)

theorem lastAsked?_cons_self (log : List (Key × Nat)) (key : Key) (index : Nat) :
    lastAsked? ((key,index) :: log) key = some index := by
  simp [lastAsked?]

theorem lastAsked?_cons_of_ne {key other : Key} (differs : other ≠ key) (log : List (Key × Nat)) (index : Nat) :
    lastAsked? ((other,index) :: log) key = lastAsked? log key := by
  simp [lastAsked?,differs]

theorem mem_of_lastAsked? {log : List (Key × Nat)} {key : Key} {index : Nat} (asked : lastAsked? log key = some index) :
    (key,index) ∈ log := by
  obtain ⟨⟨other,index'⟩,found,rfl⟩ := Option.map_eq_some_iff.mp asked
  have same : other = key := by simpa using List.find?_some found
  exact same ▸ List.mem_of_find?_eq_some found

/-- What is noted of a run and of its last request stays, unless the run is unbound. -/
def Note.Keeps (n n' : Note) : Prop := (n'.run = n.run ∧ n'.requested = n.requested) ∨ n'.run = none

theorem Note.Keeps.refl (n : Note) : n.Keeps n := .inl ⟨rfl,rfl⟩

/-! ### What turns do to the positions -/

/-- What becomes of the notes when one with something in its hands asks a session for a segment, or for nothing. -/
inductive Aims (s : State) (g : Grip) (t : State) : Option (Key × Nat) → Prop
  | nothing (keeps : ∀ entry, (s.noteAt entry).Keeps (t.noteAt entry)) : Aims s g t none
  | segment {demand : Demand} {entry index : Nat} (wants : g.demand = some demand) (given : g.entry = some entry)
      (working : s.skeleton.isRetired entry = false) (asked : (t.noteAt entry).requested = index)
      (others : ∀ other, other ≠ entry → (s.noteAt other).Keeps (t.noteAt other)) :
      Aims s g t (some (demand.key,index))

namespace Aims

variable {s t u : State} {g : Grip} {aim : Option (Key × Nat)}

theorem same (notes : ∀ entry, t.noteAt entry = s.noteAt entry) : Aims s g t none :=
  .nothing fun entry => by rw [notes]; exact .refl _

theorem follow (aims : Aims s g t aim) (notes : ∀ entry, u.noteAt entry = t.noteAt entry) : Aims s g u aim := by
  cases aims with
  | nothing keeps => exact .nothing fun entry => by rw [notes]; exact keeps entry
  | segment wants given working asked others =>
    refine .segment wants given working (by rw [notes]; exact asked) fun other differs => ?_
    rw [notes]
    exact others other differs

end Aims

theorem State.noteAt_onEntry_of_ne {entry other : Nat} (differs : other ≠ entry) (s : State) (f : Entry → Entry) :
    (s.onEntry entry f).noteAt other = s.noteAt other := by
  simp only [noteAt,onEntry,List.getElem?_modify_ne _ _ (Ne.symm differs)]

theorem State.noteAt_onEntry_self (s : State) {entry : Nat} (inside : entry < s.skeleton.locks.length)
    (f : Entry → Entry) : ∃ e, s.entries[entry]? = some e ∧ (s.onEntry entry f).noteAt entry = (f e).note := by
  obtain ⟨e,found⟩ := s.entry_of_given inside
  exact ⟨e,found,noteAt_of_found (by simp [onEntry,found])⟩

/-- An entry is emptied, and nothing becomes of the others. -/
theorem State.keeps_emptied {f : Entry → Entry} (empties : ∀ e, (f e).run = none) (s : State) (entry other : Nat) :
    (s.noteAt other).Keeps ((s.onEntry entry f).noteAt other) := by
  by_cases here : other = entry
  · subst here
    refine .inr ?_
    simp only [noteAt,onEntry,List.getElem?_modify_eq]
    cases s.entries[other]? with
    | none => rfl
    | some e => exact empties e
  · rw [s.noteAt_onEntry_of_ne here]
    exact .refl _

variable {policy : Policy} {clock : Clock} {s : State} {makers : List Key}

/-- The start of a run asks its session for the first segment of the run. -/
theorem Start.turn_aims (phase : Start) {demand : Demand} {entry ticket first : Nat}
    (fits : Fits s.skeleton makers (phase.grip demand entry ticket)) :
    (phase.turn policy (Acquire.order demand entry first) s).Leads
      (fun t _ => Aims s (phase.grip demand entry ticket) t none)
      (fun t started => Aims s (phase.grip demand entry ticket) t
        (started.outcome.toOption.map fun _ => (demand.key,first))) := by
  cases phase with
  | begin => exact .nothing fun other => s.keeps_emptied (fun _ => rfl) entry other
  | makeRoot replaced =>
    unfold Start.turn
    dsimp only
    split <;> exact .same fun _ => rfl
  | makeDirectory replaced =>
    unfold Start.turn
    dsimp only
    split <;> exact .same fun _ => rfl
  | launch replaced run =>
    unfold Start.turn
    dsimp only
    split
    · rename_i t launched
      have notes (other : Nat) : t.noteAt other = s.noteAt other := State.noteAt_of_entries (s.entries_launch launched) other
      have inside : entry < t.skeleton.locks.length := by
        rw [s.skeleton_launch launched]
        exact fits.given entry rfl
      refine .segment rfl rfl (fits.entered entry ticket rfl) ?_ fun other differs => ?_
      · obtain ⟨e,_,here⟩ := t.noteAt_onEntry_self inside fun e =>
          { e with run := some run, lastRequested := first, lastServed := none, calls := e.calls + 1 }
        exact congrArg Note.requested here
      · have here : (t.bindRun entry run first).noteAt other = t.noteAt other := t.noteAt_onEntry_of_ne differs _
        rw [Acquire.order,here,notes]
        exact .refl _
    · exact .same fun _ => rfl
  | discard replaced run why => exact .same fun _ => rfl

/-- A request that goes on using the bound run asks for its segment. -/
theorem Acquire.reuse_aims {demand : Demand} {entry ticket : Nat} {g : Grip} (wants : g.demand = some demand)
    (given : g.entry = some entry) (inside : entry < s.skeleton.locks.length)
    (working : s.skeleton.isRetired entry = false) :
    Aims s g (s.reused entry ticket (index demand)) (some (demand.key,index demand)) := by
  refine (Aims.segment (t := s.onEntry entry fun e => { e with lastRequested := index demand }) wants given working ?_
    fun other differs => ?_).follow fun other => State.noteAt_unlock _ entry ticket other
  · obtain ⟨e,_,here⟩ := s.noteAt_onEntry_self inside fun e => { e with lastRequested := index demand }
    exact congrArg Note.requested here
  · rw [s.noteAt_onEntry_of_ne differs]
    exact .refl _

theorem Acquire.decide_aims {demand : Demand} {entry ticket : Nat} {e : Entry}
    (locked : s.locked? entry ticket = some e) :
    (decide policy clock demand s entry ticket e).Leads
      (fun t _ => Aims s ((locking entry ticket).grip demand) t none)
      (fun t r => Aims s ((locking entry ticket).grip demand) t (r.toOption.bind fun _ => demand.aim?)) := by
  have found : s.entries[entry]? = some e := (Option.filter_eq_some_iff.mp locked).1
  have inside : entry < s.skeleton.locks.length := by
    simpa [State.skeleton] using (List.getElem?_eq_some_iff.mp found).1
  have freed (other : Nat) : (s.unlock entry ticket).noteAt other = s.noteAt other := s.noteAt_unlock entry ticket other
  have header {lease : Lease} (request : demand.request = .header) :
      Aims s ((locking entry ticket).grip demand) (s.unlock entry ticket)
        ((Except.ok lease : Result Lease).toOption.bind fun _ => demand.aim?) := by
    have none : demand.aim? = none := by rw [Demand.aim?,request]
    exact none ▸ Aims.same freed
  unfold decide
  split
  · exact Aims.same fun other => (State.noteAt_letGo _ clock entry other).trans (freed other)
  · rename_i listed
    have working : s.skeleton.isRetired entry = false := by
      rw [State.isRetired_of_locked locked]
      simpa using listed
    split
    · rename_i request _
      exact header request
    · rename_i request _
      exact header request
    · rename_i index run _ request bound
      split
      · split
        · exact Aims.same fun _ => rfl
        · have aim : demand.aim? = some (demand.key,Acquire.index demand) := by
            rw [Demand.aim?,Acquire.index,request]
          have aims : Aims s ((locking entry ticket).grip demand) (s.reused entry ticket (Acquire.index demand)) _ :=
            reuse_aims rfl rfl inside working
          exact aim ▸ aims
      · exact Aims.same fun _ => rfl
    · exact Aims.same fun _ => rfl

/-- What a start that has come to its end asks for when its ticket is given back. -/
theorem Aims.settled {t : State} {g : Grip} {aim : Option (Key × Nat)} (aims : Aims s g t aim) (entry ticket : Nat)
    (started : Started) : Aims s g ((t.unlock entry ticket).replace started) aim :=
  aims.follow fun other => by rw [State.noteAt_replace,State.noteAt_unlock]

theorem Acquire.turn_aims (phase : Acquire) {demand : Demand} (fits : Fits s.skeleton makers (phase.grip demand)) :
    (phase.turn policy clock demand s).Leads (fun t _ => Aims s (phase.grip demand) t none)
      (fun t r => Aims s (phase.grip demand) t (r.toOption.bind fun _ => (Call.acquire demand phase).aim?)) := by
  cases phase with
  | lookup => exact .same fun other => s.noteAt_enter clock demand.key other
  | approaching entry =>
    refine .same fun other => ?_
    rw [State.noteAt_askLock,State.noteAt_hold]
  | locking entry ticket =>
    unfold turn
    dsimp only
    split
    · trivial
    · rename_i e locked
      exact decide_aims locked
  | retrying => exact .same fun _ => rfl
  | listing entry ticket run => exact .same fun _ => rfl
  | listed entry ticket run holds =>
    unfold turn
    dsimp only
    split
    · exact reuse_aims rfl rfl (fits.given entry rfl) (fits.entered entry ticket rfl)
    · exact .same fun _ => rfl
  | starting entry ticket phase =>
    refine (phase.turn_aims fits).within (fun _ _ aims => aims) ?_
    rintro t ⟨replaced,outcome⟩ aims
    cases outcome with
    | ok run => exact aims.settled entry ticket ⟨replaced,.ok run⟩
    | error why =>
      exact (aims.settled entry ticket ⟨replaced,.error why⟩).follow fun other => State.noteAt_letGo _ clock entry other

theorem Bind.turn_aims (phase : Bind) {grant : Grant} (fits : Fits s.skeleton makers (phase.grip grant.lease)) :
    (phase.turn policy clock grant.lease s).Leads (fun t _ => Aims s (phase.grip grant.lease) t none)
      (fun t r => Aims s (phase.grip grant.lease) t (r.toOption.bind fun _ => (Call.bind grant phase).aim?)) := by
  unfold turn
  cases pending : grant.lease.pending with
  | none =>
    cases phase with
    | starting ticket first phase =>
      have none : (Call.bind grant (.starting ticket first phase)).aim? = none := by rw [Call.aim?,pending]; rfl
      exact none ▸ Aims.same fun _ => rfl
    | _ => exact Aims.same fun _ => rfl
  | some demand =>
    simp only [grip,pending] at fits ⊢
    cases phase with
    | begin => exact .same fun _ => rfl
    | approaching deadline => exact .same fun other => s.noteAt_askLock _ other
    | locking deadline calls ticket =>
      have freed (other : Nat) : (s.unlock grant.lease.entry ticket).noteAt other = s.noteAt other :=
        s.noteAt_unlock _ ticket other
      dsimp only
      split
      · trivial
      · unfold decide
        dsimp only
        split
        · exact .same fun other => (State.noteAt_letGo _ clock _ other).trans (freed other)
        · split
          · exact .same freed
          · split
            · exact .same fun _ => rfl
            · exact .same freed
    | waiting deadline calls =>
      dsimp only
      split
      · trivial
      · exact .same fun _ => rfl
    | starting ticket first phase =>
      have aim : (Call.bind grant (.starting ticket first phase)).aim? = some (demand.key,first) := by
        rw [Call.aim?,pending]
        rfl
      refine (phase.turn_aims fits).within (fun _ _ aims => aims) ?_
      rintro t ⟨replaced,outcome⟩ aims
      cases outcome with
      | ok run => exact aim ▸ aims.settled _ ticket ⟨replaced,.ok run⟩
      | error why =>
        exact (aims.settled _ ticket ⟨replaced,.error why⟩).follow fun other => State.noteAt_letGo _ clock _ other

theorem Cleanup.turn_aims (phase : Cleanup) :
    (phase.turn policy clock s).Leads (fun t _ => Aims s phase.grip t none) (fun t _ => Aims s phase.grip t none) := by
  cases phase with
  | collect => exact .same fun _ => rfl
  | visiting now waiting removed =>
    cases waiting with
    | nil => exact .same fun _ => rfl
    | cons next rest =>
      obtain ⟨key,entry⟩ := next
      unfold turn
      dsimp only
      split
      · exact .same fun _ => rfl
      · split
        · exact .nothing fun other => s.keeps_emptied (fun _ => rfl) entry other
        · exact .same fun _ => rfl
  | unlisting now key entry run rest removed =>
    unfold turn
    dsimp only
    cases run with
    | none => exact .same fun _ => rfl
    | some run =>
      have entries := (State.beside_destroyed { s with
        table := s.table.filter (· ≠ (key,entry)), owners := s.owners.filter (·.1 != run) } run).entries
      dsimp only
      split
      · rename_i t phase destroyed
        rw [destroyed] at entries
        exact .same (State.noteAt_of_entries entries)
      · rename_i t destroyed
        rw [destroyed] at entries
        exact .same (State.noteAt_of_entries entries)
  | tearing now run phase rest removed =>
    exact (s.teardown_beside clock run phase).within (fun _ _ kept => .same (State.noteAt_of_entries kept.entries))
      (fun _ _ kept => .same (State.noteAt_of_entries kept.entries))

theorem State.SameSessions.aims {t : State} (same : s.SameSessions t) (g : Grip) : Aims s g t none :=
  .nothing fun entry => .inl ⟨same.run entry,same.requested entry⟩

/-- A turn of a call that comes to a lease asks its session for what the call is for; no other turn asks for anything. -/
theorem Call.turn_aims (call : Call) (fits : Fits s.skeleton makers call.grip) :
    (call.turn policy clock s).Leads (fun t _ => Aims s call.grip t none)
      (fun t given => Aims s call.grip t (given.bind fun _ => call.aim?)) := by
  have granted {t : State} {g : Grip} {demand : Demand} {r : Result Lease} {aim : Option (Key × Nat)}
      (aims : Aims s g t (r.toOption.bind fun _ => aim)) :
      (granted demand t r).Leads (fun _ _ => False) (fun t given => Aims s g t (given.bind fun _ => aim)) := by
    cases r with
    | ok lease => exact aims
    | error why => exact aims
  cases call with
  | acquire demand phase =>
    exact Turn.Leads.within (phase.turn_aims fits) (fun _ _ aims => aims)
      (fun _ _ aims => (granted aims).mono (fun _ _ no => no.elim) (fun _ _ aims => aims))
  | bind grant phase =>
    exact Turn.Leads.within (phase.turn_aims fits) (fun _ _ aims => aims)
      (fun _ _ aims => (granted aims).mono (fun _ _ no => no.elim) (fun _ _ aims => aims))
  | mark lease index highest phase =>
    exact Turn.Leads.within (phase.turn_same lease index highest) (fun _ _ same => same.aims _) (fun _ _ same => same.aims _)
  | report id found phase =>
    exact Turn.Leads.within (phase.turn_same id found) (fun _ _ same => same.aims _) (fun _ _ same => same.aims _)
  | cleanUp phase => exact Turn.Leads.within phase.turn_aims (fun _ _ aims => aims) (fun _ _ aims => aims)

/-- A move brings only new entries into the table. -/
theorem Move.table {g h : Grip} {t : State} {news : List Key} (move : Move policy clock s g t h news) {p : Key × Nat}
    (listed : p ∈ t.skeleton.table) : p ∈ s.skeleton.table ∨ s.skeleton.locks.length ≤ p.2 := by
  rcases move.listing with same | ⟨key,new⟩ | ⟨entry,_,gone⟩ | ⟨key,entry,_,gone⟩
  · exact .inl (same.table ▸ listed)
  · rw [new.table] at listed
    rcases List.mem_append.mp listed with old | here
    · exact .inl old
    · rw [List.mem_singleton.mp here]
      exact .inr (Nat.le_refl _)
  · exact .inl (gone.table ▸ listed)
  · rw [gone.table] at listed
    exact .inl (List.mem_of_mem_filter listed)

namespace Traffic

variable {conduct : Conduct} {w w' : Traffic} {log : List (Key × Nat)}

/-- Traffic that a history leads to, with what sessions were asked for on the way, the latest first. -/
inductive Tracked (policy : Policy) (conduct : Conduct) : List (Key × Nat) → Traffic → Prop
  | start : Tracked policy conduct [] {}
  /-- A step by which no lease is given out. -/
  | passes {log : List (Key × Nat)} {w w' : Traffic} (before : Tracked policy conduct log w)
      (step : Step policy conduct w w') (nothing : w'.grants ≤ w.grants) : Tracked policy conduct log w'
  /-- A call comes to a lease. -/
  | gives {log : List (Key × Nat)} {w : Traffic} (before : Tracked policy conduct log w) (call : Call)
      (calls : Multiset Call) (going : w.calls = call ::ₘ calls) {s : State} {grant : Grant}
      (turned : call.turn policy w.clock w.state = .ends s (some grant)) :
      Tracked policy conduct (call.aim?.toList ++ log)
        { w with state := s, calls := calls, grants := {grant} + w.grants, makers := w.makersAfter call s }

theorem reachable_of_tracked (tracked : Tracked policy conduct log w) : w.Reachable policy conduct := by
  induction tracked with
  | start => exact .refl
  | passes _ step _ ih => exact ih.tail step
  | gives _ call calls going turned ih => exact ih.tail (.ends call calls going turned)

/-- Every history can be tracked. -/
theorem tracked_of_reachable (reached : w.Reachable policy conduct) : ∃ log, Tracked policy conduct log w := by
  induction reached with
  | refl => exact ⟨[],.start⟩
  | tail _ step ih =>
    obtain ⟨log,before⟩ := ih
    have stepped := step
    cases step with
    | ends call calls going turned =>
      rename_i given
      cases given with
      | none => exact ⟨log,before.passes stepped (Multiset.zero_add _).le⟩
      | some grant => exact ⟨_,before.gives call calls going turned⟩
    | bind grant grants held => exact ⟨log,before.passes stepped (held ▸ Multiset.le_cons_self grants grant)⟩
    | drop grant grants held => exact ⟨log,before.passes stepped (held ▸ Multiset.le_cons_self grants grant)⟩
    | _ => exact ⟨log,before.passes stepped le_rfl⟩

/-- The positions of the players are known: where a run is bound, its entry notes what the session was asked for last. -/
def IsTracked (log : List (Key × Nat)) (w : Traffic) : Prop :=
  ∀ key entry, (key,entry) ∈ w.state.table → (w.state.noteAt entry).run ≠ none →
    lastAsked? log key = some (w.state.noteAt entry).requested

theorem table_step (sound : w.IsSound) (step : Step policy conduct w w') {p : Key × Nat} (listed : p ∈ w'.state.table) :
    p ∈ w.state.table ∨ w.state.skeleton.locks.length ≤ p.2 := by
  have listed : p ∈ w'.state.skeleton.table := listed
  cases step.change sound.listed.working with
  | keeps skeleton makers grips => exact .inl (by rw [skeleton] at listed; exact listed)
  | joins skeleton makers grips idle visits wants given => exact .inl (by rw [skeleton] at listed; exact listed)
  | parts skeleton makers grips idle => exact .inl (by rw [skeleton] at listed; exact listed)
  | moves before move covers after makers => exact move.table listed

/-- An entry whose note stays is where it was, and is at what its session was asked for last. -/
theorem IsTracked.stays (tracked : w.IsTracked log) (sound : w.IsSound) (step : Step policy conduct w w') {key : Key}
    {entry : Nat} (listed : (key,entry) ∈ w'.state.table) (bound : (w'.state.noteAt entry).run ≠ none)
    (keeps : (w.state.noteAt entry).Keeps (w'.state.noteAt entry)) :
    (key,entry) ∈ w.state.table ∧ lastAsked? log key = some (w'.state.noteAt entry).requested := by
  obtain ⟨same,asked⟩ := keeps.resolve_right bound
  rw [same] at bound
  rcases table_step sound step listed with old | new
  · exact ⟨old,asked ▸ tracked key entry old bound⟩
  · have missing : w.state.entries[entry]? = none := List.getElem?_eq_none (by simpa [State.skeleton] using new)
    exact absurd (by rw [State.noteAt,missing]; rfl) bound

/-- The positions stay known when one asks its session for a segment, or for nothing. -/
theorem IsTracked.aim (tracked : w.IsTracked log) (sound : w.IsSound) (step : Step policy conduct w w') {g : Grip}
    (fits : Fits w.state.skeleton w.makers g) {aim : Option (Key × Nat)} (aims : Aims w.state g w'.state aim) :
    w'.IsTracked (aim.toList ++ log) := by
  intro key entry listed bound
  cases aims with
  | nothing keeps => exact (tracked.stays sound step listed bound (keeps entry)).2
  | @segment demand entry' index wants given working asked others =>
    have known : (demand.key,entry') ∈ w.state.table :=
      (fits.known demand entry' wants given).resolve_right (by rw [working]; decide)
    by_cases here : entry = entry'
    · subst here
      have old := (table_step sound step listed).resolve_right (Nat.not_le_of_lt (fits.given entry given))
      obtain rfl := sound.listed.names key demand.key entry old known
      rw [asked]
      exact lastAsked?_cons_self log demand.key index
    · obtain ⟨old,still⟩ := tracked.stays sound step listed bound (others entry here)
      have differs : demand.key ≠ key := by
        rintro rfl
        have same : (demand.key,entry) = (demand.key,entry') := List.inj_on_of_nodup_map sound.listed.keys old known rfl
        exact here (congrArg Prod.snd same)
      exact (lastAsked?_cons_of_ne differs log index).trans still

/-- A step by which no lease is given out asks no session for anything. -/
theorem keeps_step (sound : w.IsSound) (step : Step policy conduct w w') (nothing : w'.grants ≤ w.grants) (entry : Nat) :
    (w.state.noteAt entry).Keeps (w'.state.noteAt entry) := by
  have same (notes : w'.state.noteAt entry = w.state.noteAt entry) :
      (w.state.noteAt entry).Keeps (w'.state.noteAt entry) := by
    rw [notes]
    exact .refl _
  cases step with
  | drop grant grants held => exact same (w.state.noteAt_letGo w.clock grant.lease.entry entry)
  | goesOn call calls going turned =>
    have aims : (call.turn policy w.clock w.state).Leads _ _ := call.turn_aims (sound.fits_of_going going)
    rw [turned] at aims
    cases aims with
    | nothing keeps => exact keeps entry
  | @ends call calls going s given turned =>
    have aims : (call.turn policy w.clock w.state).Leads _ _ := call.turn_aims (sound.fits_of_going going)
    rw [turned] at aims
    cases given with
    | none =>
      cases aims with
      | nothing keeps => exact keeps entry
    | some grant =>
      have fewer : w.grants.card + 1 ≤ w.grants.card := by simpa using Multiset.card_le_card nothing
      exact absurd fewer (Nat.not_succ_le_self _)
  | task number turned =>
    exact same (State.noteAt_of_entries (w.state.beside_taskTurn sound.listed.working turned).entries entry)
  | happen event => exact same (State.noteAt_of_entries (w.state.beside_event event).entries entry)
  | _ => exact same rfl

/-- In every history, what is noted where a run is bound is what the session was asked for last. -/
theorem isTracked_of_tracked (tracked : Tracked policy conduct log w) : w.IsTracked log := by
  induction tracked with
  | start => exact fun _ _ listed => by cases listed
  | passes before step nothing ih =>
    have sound := sound_of_reachable (reachable_of_tracked before)
    intro key entry listed bound
    exact (ih.stays sound step listed bound (keeps_step sound step nothing entry)).2
  | @gives log w before call calls going s grant turned ih =>
    have sound := sound_of_reachable (reachable_of_tracked before)
    have fits := sound.fits_of_going going
    have aims : (call.turn policy w.clock w.state).Leads _ _ := call.turn_aims fits
    rw [turned] at aims
    have step : Step policy conduct w _ := .ends call calls going turned
    exact ih.aim sound step fits aims

end Traffic
end Playout.Playback
