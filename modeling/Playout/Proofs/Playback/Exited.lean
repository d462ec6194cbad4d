import Playout.Proofs.Playback.Decision
import Playout.Proofs.Playback.Ties

/-!
Runs that have exited. A request for a segment goes on using such a run only if it has
listed the directory of the run under the lock of the entry and has found the segment
there. A request for the header looks at nothing but the mark that a run is destroyed:
it is given the bound run whether that still works or not, and whatever it has written.
-/
namespace Playout.Playback

variable {policy : Policy} {clock : Clock} {conduct : Conduct}

/-- Whether the directory of a run that has exited holds a segment. -/
def State.HasWritten (s : State) (run index : Nat) : Prop :=
  ∃ r a name, s.runs[run]? = some r ∧ r.available? true = some a ∧ (index,name) ∈ a.segments

/-- Only a listing that finds the segment leads to where it is found. -/
theorem Acquire.turn_finds (s : State) (demand : Demand) (phase : Acquire) :
    (phase.turn policy clock demand s).Leads
      (fun _ next => ∀ entry ticket run, next = .listed entry ticket run true →
        phase = .listing entry ticket run ∧ s.HasWritten run (index demand))
      (fun _ _ => True) := by
  cases phase with
  | lookup => exact fun _ _ _ is => by cases is
  | approaching entry => exact fun _ _ _ is => by cases is
  | locking entry ticket =>
    unfold turn
    dsimp only
    split
    · trivial
    · unfold decide
      split
      · exact fun _ _ _ is => by cases is
      · split
        · trivial
        · trivial
        · split
          · split
            · exact fun _ _ _ is => by cases is
            · trivial
          · exact fun _ _ _ is => by cases is
        · exact fun _ _ _ is => by cases is
  | retrying => exact fun _ _ _ is => by cases is
  | listing entry ticket run =>
    intro entry' ticket' run' is
    injection is with _ _ _ holds
    obtain ⟨name,named⟩ := Option.isSome_iff_exists.mp holds
    obtain ⟨a,listed,named⟩ := Option.bind_eq_some_iff.mp named
    obtain ⟨r,found,available⟩ := Option.bind_eq_some_iff.mp listed
    obtain ⟨name,member⟩ := (a.segment?_isSome (index demand)).mp (by rw [named]; rfl)
    subst_vars
    exact ⟨rfl,r,a,name,found,available,member⟩
  | listed entry ticket run holds =>
    unfold turn
    dsimp only
    split
    · trivial
    · exact fun _ _ _ is => by cases is
  | starting entry ticket phase =>
    refine (Turn.Leads.any _).within (fun _ _ _ _ _ _ is => by cases is) ?_
    rintro t ⟨replaced,outcome⟩ _
    cases outcome <;> trivial

theorem Call.turn_finds (s : State) (call : Call) :
    (call.turn policy clock s).Leads
      (fun _ next => ∀ demand entry ticket run, next = .acquire demand (.listed entry ticket run true) →
        call = .acquire demand (.listing entry ticket run) ∧ s.HasWritten run (Acquire.index demand))
      (fun _ _ => True) := by
  cases call with
  | acquire demand phase =>
    refine Turn.Leads.within (phase.turn_finds s demand) ?_ (fun _ r _ => by cases r <;> trivial)
    rintro t next finds demand' entry ticket run is
    injection is with same listed
    subst same
    obtain ⟨listing,holds⟩ := finds entry ticket run listed
    exact ⟨by rw [listing],holds⟩
  | bind grant phase =>
    exact (Turn.Leads.any _).within (fun _ _ _ _ _ _ _ is => by cases is) (fun _ r _ => by cases r <;> trivial)
  | mark lease index highest phase =>
    exact (Turn.Leads.any _).within (fun _ _ _ _ _ _ _ is => by cases is) (fun _ _ _ => trivial)
  | report id found phase =>
    exact (Turn.Leads.any _).within (fun _ _ _ _ _ _ _ is => by cases is) (fun _ _ _ => trivial)
  | cleanUp phase =>
    exact (Turn.Leads.any _).within (fun _ _ _ _ _ _ _ is => by cases is) (fun _ _ _ => trivial)

/-- A request for a segment that comes to a run which was bound before and has exited has found the segment there. -/
theorem Acquire.turn_reuses {s : State} {makers : List Key} {demand : Demand} {phase : Acquire}
    (fits : Fits s.skeleton makers (phase.grip demand)) {index : Nat} (request : demand.request = .segment index) :
    (phase.turn policy clock demand s).Leads (fun _ _ => True)
      (fun _ r => ∀ lease run, r = .ok lease → lease.run = some run → s.skeleton.bound? lease.entry = some run →
        s.hasExited run = true → ∃ ticket, phase = .listed lease.entry ticket run true) := by
  cases phase with
  | locking entry ticket =>
    unfold turn
    dsimp only
    split
    · trivial
    · unfold decide
      split
      · trivial
      · split
        · rename_i header _
          rw [request] at header
          cases header
        · rename_i header _
          rw [request] at header
          cases header
        · split
          · split
            · trivial
            · rename_i working
              rintro _ run ⟨⟩ ⟨⟩ _ exited
              exact absurd exited working
          · trivial
        · trivial
  | listed entry ticket run holds =>
    unfold turn
    dsimp only
    split
    · rename_i found
      rintro _ run' ⟨⟩ ⟨⟩ _ _
      exact ⟨ticket,by rw [found]⟩
    · trivial
  | starting entry ticket phase =>
    have launches : (phase.turn policy (order demand entry (Acquire.index demand)) s).Leads (fun _ _ => True)
        (fun _ started => ∀ run, started.outcome = .ok run → s.skeleton.bound? entry = none) := by
      cases phase with
      | launch replaced run =>
        unfold Start.turn
        dsimp only
        split
        · exact fun _ _ => fits.emptied entry ticket rfl
        · trivial
      | begin => trivial
      | makeRoot replaced =>
        unfold Start.turn
        dsimp only
        split
        · exact fun _ failed => by cases failed
        · trivial
      | makeDirectory replaced =>
        unfold Start.turn
        dsimp only
        split
        · exact fun _ failed => by cases failed
        · trivial
      | discard replaced run why => exact fun _ failed => by cases failed
    refine launches.within (fun _ _ _ => trivial) ?_
    rintro t ⟨replaced,outcome⟩ empty
    cases outcome with
    | ok run =>
      rintro _ run' ⟨⟩ ⟨⟩ bound _
      rw [empty run rfl] at bound
      cases bound
    | error why => exact fun _ _ failed => by cases failed
  | _ => trivial

namespace Traffic

variable {w w' : Traffic}

/-- On the way to a traffic, a request has listed the directory of a run and has found its segment there. -/
def HasFound (policy : Policy) (conduct : Conduct) (w : Traffic) (demand : Demand) (entry ticket run : Nat) : Prop :=
  ∃ u : Traffic, u.Reachable policy conduct ∧ Relation.ReflTransGen (Step policy conduct) u w ∧
    .acquire demand (.listing entry ticket run) ∈ u.calls ∧ u.state.HasWritten run (Acquire.index demand)

/-- Who knows that a run holds the segment has found it. -/
theorem found_of_listed (reached : w.Reachable policy conduct) {demand : Demand} {entry ticket run : Nat}
    (going : .acquire demand (.listed entry ticket run true) ∈ w.calls) :
    w.HasFound policy conduct demand entry ticket run := by
  induction reached with
  | refl => cases going
  | @tail u v before step ih =>
    have later (old : .acquire demand (.listed entry ticket run true) ∈ u.calls) :
        v.HasFound policy conduct demand entry ticket run := by
      obtain ⟨x,reached,path,listing,holds⟩ := ih old
      exact ⟨x,reached,path.tail step,listing,holds⟩
    have begins {call : Call} (other : .acquire demand (.listed entry ticket run true) ≠ call)
        (member : .acquire demand (.listed entry ticket run true) ∈ call ::ₘ u.calls) :
        v.HasFound policy conduct demand entry ticket run :=
      later ((Multiset.mem_cons.mp member).resolve_left other)
    have stepped := step
    cases step with
    | ask demand asked => exact begins (by simp) going
    | bind grant grants held => exact begins (by simp) going
    | mark grant held index highest marked => exact begins (by simp) going
    | report run report => exact begins (by simp) going
    | cleanUp => exact begins (by simp) going
    | goesOn call calls went turned =>
      rcases Multiset.mem_cons.mp going with here | old
      · subst here
        have finds : (call.turn policy u.clock u.state).Leads _ _ := call.turn_finds u.state
        rw [turned] at finds
        obtain ⟨rfl,holds⟩ := finds demand entry ticket run rfl
        exact ⟨u,before,.single stepped,went ▸ Multiset.mem_cons_self _ _,holds⟩
      · exact later (went ▸ Multiset.mem_cons_of_mem old)
    | ends call calls went turned => exact later (went ▸ Multiset.mem_cons_of_mem going)
    | _ => exact later going

/-- Who has come to the lock of an entry that is bound finds it in the table, with a run that is not destroyed. -/
theorem IsSound.live_of_locked (sound : w.IsSound) {entry ticket run : Nat} {e : Entry}
    (locked : w.state.locked? entry ticket = some e) (bound : e.run = some run) :
    e.isRetired = false ∧ w.state.liveRun? e = some run := by
  have at_entry : w.state.skeleton.bound? entry = some run := (State.bound?_of_locked locked).trans bound
  constructor
  · cases retired : e.isRetired with
    | false => rfl
    | true =>
      have empty := sound.listed.retired entry ((State.isRetired_of_locked locked).trans retired)
      cases empty.symm.trans at_entry
  · rw [State.liveRun?,bound,Option.filter_some,sound.alive_of_bound at_entry]
    rfl

/-- In every history, a request for a segment that goes on using a run which has exited has listed the directory of the
    run and has found the segment there. A request for the header does not look: when it comes to the lock of an entry
    that is bound, as a new request or with a lease that waits for a run, it is given the run, whether that has exited
    or not and whatever it has written. -/
theorem reuse_of_exited_runs (reached : w.Reachable policy conduct) :
    (∀ (demand : Demand) (phase : Acquire) (index : Nat) (t : State) (lease : Lease) (run : Nat),
      .acquire demand phase ∈ w.calls → demand.request = .segment index →
      phase.turn policy w.clock demand w.state = .ends t (.ok lease) → lease.run = some run →
      w.state.skeleton.bound? lease.entry = some run → w.state.hasExited run = true →
      ∃ ticket, w.HasFound policy conduct demand lease.entry ticket run) ∧
    (∀ (demand : Demand) (entry ticket : Nat) (e : Entry) (run : Nat), demand.request = .header →
      w.state.locked? entry ticket = some e → e.run = some run →
      (Acquire.locking entry ticket).turn policy w.clock demand w.state =
        .ends (w.state.unlock entry ticket) (.ok ⟨entry,some run,none⟩)) ∧
    ∀ (lease : Lease) (demand : Demand) (deadline calls ticket : Nat) (e : Entry) (run : Nat),
      lease.pending = some demand → w.state.locked? lease.entry ticket = some e → e.run = some run →
      (Bind.locking deadline calls ticket).turn policy w.clock lease w.state =
        .ends (w.state.unlock lease.entry ticket) (.ok ⟨lease.entry,some run,none⟩) := by
  have sound := sound_of_reachable reached
  refine ⟨?_,?_,?_⟩
  · intro demand phase index t lease run going request turned given bound exited
    have member : Call.grip (.acquire demand phase) ∈ w.grips :=
      Multiset.mem_add.mpr (.inl (Multiset.mem_map_of_mem Call.grip going))
    have reuses : (phase.turn policy w.clock demand w.state).Leads _ _ :=
      Acquire.turn_reuses (sound.fits _ member) request
    rw [turned] at reuses
    obtain ⟨ticket,rfl⟩ := reuses lease run rfl given bound exited
    exact ⟨ticket,found_of_listed reached going⟩
  · intro demand entry ticket e run request locked bound
    obtain ⟨listed,live⟩ := sound.live_of_locked locked bound
    simp [Acquire.turn,locked,Acquire.decide,listed,request,live,Acquire.serve]
  · intro lease demand deadline calls ticket e run pending locked bound
    obtain ⟨listed,live⟩ := sound.live_of_locked locked bound
    simp [Bind.turn,pending,locked,Bind.decide,listed,live]

/-- The film was asked for, its run has written the first segment and has exited, and the segment is asked for again. -/
theorem written_segment_of_exited_run_is_found :
    ∃ w : Traffic, w.Reachable (.ofConfig {}) .free ∧ w.state.hasExited 0 = true ∧
      ∃ ticket, w.HasFound (.ofConfig {}) .free firstRequest 0 ticket 0 := by
  have scripted : Reachable (.ofConfig {}) .free _ := .tail .refl (.happen (.script { produces := 1 }))
  have asked := scripted.tail (.ask firstRequest trivial)
  have found := asked.tail (.goesOn _ 0 rfl rfl)
  have entered := found.tail (.goesOn _ 0 rfl rfl)
  have inside := entered.tail (.goesOn _ 0 rfl rfl)
  have unbound := inside.tail (.goesOn _ 0 rfl rfl)
  have rooted := unbound.tail (.goesOn _ 0 rfl rfl)
  have made := rooted.tail (.goesOn _ 0 rfl rfl)
  have served := made.tail (.ends _ 0 rfl rfl)
  have ended := served.tail (.happen (.exit 0 ⟨some 0⟩))
  have again := ended.tail (.ask firstRequest trivial)
  have known := again.tail (.goesOn _ 0 rfl rfl)
  have waits := known.tail (.goesOn _ 0 rfl rfl)
  have lists := waits.tail (.goesOn _ 0 rfl rfl)
  have holds := lists.tail (.goesOn _ 0 rfl rfl)
  exact ⟨_,holds,rfl,(reuse_of_exited_runs holds).1 firstRequest (.listed 0 1 0 true) 0 _ ⟨0,some 0,none⟩ 0
    (Multiset.mem_singleton_self _) rfl rfl rfl rfl rfl⟩

/-- A header is asked for, its run is started when the time to wait for it is over, and crashes before it has written
    anything; the header is asked for again, and is to come from the same run. -/
theorem crashed_run_is_handed_out_again :
    ∃ w : Traffic, w.Reachable (.ofConfig {}) .free ∧ .acquire headerRequest (.locking 0 2) ∈ w.calls ∧
      ∃ t, (Acquire.locking 0 2).turn (.ofConfig {}) w.clock headerRequest w.state = .ends t (.ok ⟨0,some 0,none⟩) ∧
        t.hasExited 0 = true ∧ ∃ r a, t.runs[0]? = some r ∧ r.available? true = some a ∧ a.header = none := by
  have asked : Reachable (.ofConfig {}) .free _ := .tail .refl (.ask headerRequest trivial)
  have found := asked.tail (.goesOn _ 0 rfl rfl)
  have entered := found.tail (.goesOn _ 0 rfl rfl)
  have pending := entered.tail (.ends _ 0 rfl rfl)
  have bound := pending.tail (.bind _ 0 rfl)
  have timed := bound.tail (.goesOn _ 0 rfl rfl)
  have waited := timed.tail (.wait ⟨1000,0⟩ (by decide) (by decide))
  have due := waited.tail (.goesOn _ 0 rfl rfl)
  have begins := due.tail (.goesOn _ 0 rfl rfl)
  have unbound := begins.tail (.goesOn _ 0 rfl rfl)
  have rooted := unbound.tail (.goesOn _ 0 rfl rfl)
  have made := rooted.tail (.goesOn _ 0 rfl rfl)
  have served := made.tail (.ends _ 0 rfl rfl)
  have crashed := served.tail (.happen (.exit 0 ⟨some 1⟩))
  have dropped := crashed.tail (.drop _ 0 rfl)
  have again := dropped.tail (.ask headerRequest trivial)
  have known := again.tail (.goesOn _ 0 rfl rfl)
  have waits := known.tail (.goesOn _ 0 rfl rfl)
  exact ⟨_,waits,Multiset.mem_singleton_self _,_,rfl,rfl,_,_,rfl,rfl,rfl⟩

end Traffic
end Playout.Playback
