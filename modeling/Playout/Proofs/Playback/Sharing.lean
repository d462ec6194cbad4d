import Playout.Proofs.Playback.Progress
import Playout.Proofs.Playback.Starting

/-!
Calls that share the run of a session: requests for the header, the bindings of their
leases, and one request for a segment, if the player makes one. What is known of each of
them (`Call.Shares`) stays true while the others take their turns, and each turn leads on
or to a lease (`Call.turn_shares`): for the run that is bound, or for one that is launched
where none was, by the request for a segment or else by the first binding that is overdue.
-/
namespace Playout.Playback

/-- A lease is for the run that is bound to the key, or its run is still to be chosen. -/
inductive Lease.Shares (key : Key) (live : Option Nat) (s : State) (lease : Lease) : Prop
  | bound (run : Nat) (lives : live = some run) (has : lease.run = some run) (settled : lease.pending = none)
  | pending (demand : Demand) (unbound : lease.run = none) (wants : lease.pending = some demand)
      (found : s.find? key = some lease.entry)

/-- What is known at a phase of a request for the session. -/
def Acquire.Shares (policy : Policy) (demand : Demand) (s : State) : Acquire → Prop
  | lookup => True
  | approaching entry | locking entry _ => s.find? demand.key = some entry
  | starting entry _ phase => s.find? demand.key = some entry ∧ demand.request ≠ .header ∧
      phase.Stands policy (order demand entry (index demand)) none s
  | retrying | listing .. | listed .. => False

/-- What is known at a phase of the binding of a pending lease. One who waits has not been called while no run is bound,
    and has been called once there is one. -/
def Bind.Shares (policy : Policy) (media : Option Demand) (live : Option Nat) (demand : Demand) (entry : Nat)
    (s : State) : Bind → Prop
  | begin | approaching _ => True
  | locking _ calls _ => live = none → callsOf s entry = calls
  | waiting _ calls => callsOf s entry = calls ↔ live = none
  | starting _ first phase => media = none ∧ phase.Stands policy (Acquire.order demand entry first) none s

/-- What is known of a call that shares the run of a key, when one request for a segment is made or none. -/
def Call.Shares (policy : Policy) (key : Key) (media : Option Demand) (live : Option Nat) (s : State) : Call → Prop
  | acquire demand phase => demand.key = key ∧ (demand.request = .header ∨ media = some demand) ∧
      phase.Shares policy demand s
  | bind grant phase => grant.lease.Shares key live s ∧
      ∀ demand, grant.lease.pending = some demand → phase.Shares policy media live demand grant.lease.entry s
  | mark .. | report .. => True
  | cleanUp _ => False

/-- Whether a call is a request for a segment. -/
def Call.seeks : Call → Bool
  | acquire demand _ => demand.request != .header
  | bind .. | mark .. | report .. | cleanUp _ => false

/-- Whether a call is a request for the header. -/
def Call.AsksHeader : Call → Prop
  | acquire demand _ => demand.request = .header
  | bind .. | mark .. | report .. | cleanUp _ => False

variable {policy : Policy} {clock : Clock} {key : Key} {media : Option Demand} {live : Option Nat} {s t : State}
  {o : Order} {run entry ticket : Nat}

theorem Lease.Shares.settled {lease : Lease} (shares : lease.Shares key live s) (settled : lease.isPending = false) :
    ∃ run, lease.run = some run ∧ live = some run := by
  cases shares with
  | bound run lives has _ => exact ⟨run,has,lives⟩
  | pending demand unbound wants found => simp [isPending,unbound] at settled

/-! ### What others do -/

theorem Lease.Shares.grow {lease : Lease} (shares : lease.Shares key live s) (grows : s.Grows t) :
    lease.Shares key live t := by
  cases shares with
  | bound run lives has settled => exact .bound run lives has settled
  | pending demand unbound wants found => exact .pending demand unbound wants (grows.find key _ found)

theorem Call.Shares.grow {call : Call} (shares : call.Shares policy key media live s) (grows : s.Grows t) :
    call.Shares policy key media live t := by
  cases call with
  | acquire demand phase =>
    obtain ⟨same,asked,shares⟩ := shares
    refine ⟨same,asked,?_⟩
    cases phase with
    | approaching entry => exact grows.find demand.key entry shares
    | locking entry ticket => exact grows.find demand.key entry shares
    | starting entry ticket phase => exact ⟨grows.find demand.key entry shares.1,shares.2.1,shares.2.2.grow grows⟩
    | _ => exact shares
  | bind grant phase =>
    refine ⟨shares.1.grow grows,fun demand wants => ?_⟩
    have known := shares.2 demand wants
    cases phase with
    | locking deadline calls ticket => exact fun none => (grows.calls _).trans (known none)
    | waiting deadline calls =>
      simp only [Bind.Shares,grows.calls]
      exact known
    | starting ticket first phase => exact ⟨known.1,known.2.grow grows⟩
    | _ => trivial
  | _ => exact shares

theorem Lease.Shares.launch {lease : Lease} (shares : lease.Shares key none s) (same : t.find? key = s.find? key) :
    lease.Shares key (some run) t := by
  cases shares with
  | bound run lives has settled => cases lives
  | pending demand unbound wants found => exact .pending demand unbound wants (same.trans found)

/-- When a run is launched, those who wait for one are called. Nobody else starts one then, for the lock was held. -/
theorem Call.Shares.launch {call : Call} (shares : call.Shares policy key media none s)
    (launched : State.Launched policy s o none run t) (found : s.find? key = some o.entry)
    (outside : ∀ ticket, call.grip.hold.entered? ≠ some (o.entry,ticket)) :
    call.Shares policy key media (some run) t := by
  have find (key : Key) : t.find? key = s.find? key := by
    rw [State.find?,launched.table]
    rfl
  cases call with
  | acquire demand phase =>
    obtain ⟨rfl,asked,shares⟩ := shares
    refine ⟨rfl,asked,?_⟩
    cases phase with
    | approaching entry => exact (find demand.key).trans shares
    | locking entry ticket => exact (find demand.key).trans shares
    | starting entry ticket phase =>
      cases found.symm.trans shares.1
      exact absurd (by cases phase <;> rfl) (outside ticket)
    | _ => exact shares
  | bind grant phase =>
    refine ⟨shares.1.launch (find key),fun demand wants => ?_⟩
    have known := shares.2 demand wants
    have here : grant.lease.entry = o.entry := by
      cases shares.1 with
      | bound run lives has settled => cases lives
      | pending demand unbound wants found' => exact Option.some.inj (found'.symm.trans found)
    cases phase with
    | locking deadline calls ticket => exact fun none => by cases none
    | waiting deadline calls =>
      have before := known.mpr rfl
      have after := launched.calls
      rw [← here] at after
      exact iff_of_false (by omega) (by simp)
    | starting ticket first phase =>
      refine absurd ?_ (outside ticket)
      rw [← here]
      simp only [grip,Bind.grip,wants]
      cases phase <;> rfl
    | _ => trivial
  | _ => exact shares

/-! ### Turns -/

/-- What the turns take for granted: runs can be started, the entry of the key stays in the table, and what is bound
    there is not destroyed. -/
structure State.Hosts (s : State) (key : Key) (live : Option Nat) : Prop where
  launches : s.Launches
  stays : ∀ entry, s.find? key = some entry → entry < s.skeleton.locks.length ∧ s.skeleton.isRetired entry = false
  run : (s.noteOf key).run = live
  alive : ∀ run, live = some run → s.isDestroyed run = false

/-- What a turn leads to that launches no run. -/
structure State.Carries (key : Key) (live : Option Nat) (s t : State) : Prop where
  grows : s.Grows t
  run : (t.noteOf key).run = live

namespace State

theorem Hosts.run_noteAt (hosts : s.Hosts key live) (found : s.find? key = some entry) :
    (s.noteAt entry).run = live := by
  rw [← noteOf_of_found found]
  exact hosts.run

theorem Hosts.refl (hosts : s.Hosts key live) : s.Carries key live s := ⟨.refl s,hosts.run⟩

theorem Hosts.same (hosts : s.Hosts key live) (same : s.SameSessions t) : s.Carries key live t :=
  ⟨same.grows,(same.noteOf key).1.trans hosts.run⟩

/-- What one sees who has come to the lock. -/
theorem Hosts.locked (hosts : s.Hosts key live) (found : s.find? key = some entry) {e : Entry}
    (locked : s.locked? entry ticket = some e) : e.isRetired = false ∧ e.run = live ∧ s.liveRun? e = live := by
  have here : s.entries[entry]? = some e := (Option.filter_eq_some_iff.mp locked).1
  have bound : e.run = live := by
    have run := hosts.run_noteAt found
    rwa [noteAt_of_found here] at run
  refine ⟨(isRetired_of_locked locked).symm.trans (hosts.stays entry found).2,bound,?_⟩
  rw [liveRun?,bound]
  cases live with
  | none => rfl
  | some run => simp [hosts.alive run rfl]

end State

/-- A turn of the start of a run where none was bound. -/
theorem Start.turn_carries (phase : Start) (ticket : Nat) (hosts : s.Hosts key live)
    (found : s.find? key = some o.entry) (stands : phase.Stands policy o none s) :
    (phase.turn policy o s).Leads
      (fun t next => s.Carries key live t ∧ t.find? key = some o.entry ∧ next.Stands policy o none t)
      (fun t started => ∃ run, started = ⟨none,.ok run⟩ ∧
        State.Launched policy s o none run ((t.unlock o.entry ticket).replace started)) := by
  have unbound : live = none := (hosts.run_noteAt found).symm.trans stands.unbound
  refine (phase.turn_stands ticket (hosts.stays o.entry found).1 hosts.launches (fun _ old => by cases old) stands).mono
    ?_ (fun _ _ launched => launched)
  rintro t next ⟨grows,stands'⟩
  have found' := grows.find key o.entry found
  refine ⟨⟨grows,?_⟩,found',stands'⟩
  rw [State.noteOf_of_found found',unbound]
  exact stands'.unbound

/-- A call has launched a run for the key, while it held the lock of the entry, and was given a lease for the run. -/
structure Lease.Opens (policy : Policy) (key : Key) (s : State) (h : Hold) (o : Order) (run : Nat) (t : State)
    (lease : Lease) : Prop where
  found : s.find? key = some o.entry
  unbound : (s.noteAt o.entry).run = none
  launched : State.Launched policy s o none run t
  lease : lease = ⟨o.entry,some run,none⟩
  inside : ∃ ticket, h.entered? = some (o.entry,ticket)

/-- A turn of a request for the session. -/
theorem Acquire.turn_shares (phase : Acquire) {demand : Demand} (hosts : s.Hosts demand.key live)
    (unbound : demand.request ≠ .header → live = none) (shares : phase.Shares policy demand s) :
    (phase.turn policy clock demand s).Leads
      (fun t next => s.Carries demand.key live t ∧ next.Shares policy demand t)
      (fun t r => ∃ lease, r = .ok lease ∧
        ((demand.request = .header ∧ s.Carries demand.key live t ∧ lease.Shares demand.key live t) ∨
          (demand.request ≠ .header ∧ ∃ o run, o.first = index demand ∧
            lease.Opens policy demand.key s (phase.grip demand).hold o run t))) := by
  cases phase with
  | lookup =>
    obtain ⟨found,noted⟩ := noteOf_enter s clock demand.key
    have run : ((enter clock demand.key s).1.noteOf demand.key).run = live := by
      rw [State.noteOf_of_found found,noted]
      exact hosts.run
    exact ⟨⟨grows_enter s clock demand.key,run⟩,found⟩
  | approaching entry =>
    have same := State.SameSessions.approach s entry
    exact ⟨hosts.same same,(same.find? demand.key).trans shares⟩
  | locking entry ticket =>
    unfold turn
    dsimp only
    split
    · trivial
    · rename_i e locked
      obtain ⟨listed,bound,lives⟩ := hosts.locked shares locked
      have freed := State.SameSessions.unlock s entry ticket
      have found : (s.unlock entry ticket).find? demand.key = some entry := (freed.find? demand.key).trans shares
      simp only [decide,listed,bound,lives]
      cases request : demand.request with
      | header =>
        cases live with
        | none => exact ⟨_,rfl,.inl ⟨rfl,hosts.same freed,.pending demand rfl rfl found⟩⟩
        | some run => exact ⟨_,rfl,.inl ⟨rfl,hosts.same freed,.bound run rfl rfl rfl⟩⟩
      | segment index =>
        have seeks : demand.request ≠ .header := by
          rw [request]
          exact fun is => by cases is
        cases unbound seeks
        exact ⟨hosts.refl,shares,seeks,hosts.run_noteAt shares⟩
  | starting entry ticket phase =>
    obtain ⟨found,seeks,stands⟩ := shares
    refine (phase.turn_carries ticket hosts found stands).within ?_ ?_
    · rintro t next ⟨carries,found',stands'⟩
      exact ⟨carries,found',seeks,stands'⟩
    · rintro t _ ⟨run,rfl,launched⟩
      refine ⟨_,rfl,.inr ⟨seeks,order demand entry (index demand),run,rfl,found,stands.unbound,launched,rfl,ticket,?_⟩⟩
      cases phase <;> rfl
  | _ => exact shares.elim

/-- A turn of the binding of a lease. While the request for a segment has not come to its lease, the binding must not be
    overdue at the lock. -/
theorem Bind.turn_shares (phase : Bind) {lease : Lease} (hosts : s.Hosts key live) (shares : lease.Shares key live s)
    (known : ∀ demand, lease.pending = some demand → phase.Shares policy media live demand lease.entry s)
    (early : media ≠ none → live = none → ∀ deadline calls ticket e, phase = .locking deadline calls ticket →
      s.locked? lease.entry ticket = some e → clock.millis < deadline) :
    (phase.turn policy clock lease s).Leads
      (fun t next => s.Carries key live t ∧ lease.Shares key live t ∧
        ∀ demand, lease.pending = some demand → next.Shares policy media live demand lease.entry t)
      (fun t r => ∃ lease', r = .ok lease' ∧
        ((s.Carries key live t ∧ lease'.Shares key live t ∧ lease'.isPending = false) ∨
          (media = none ∧ ∃ o run, lease'.Opens policy key s (phase.grip lease).hold o run t))) := by
  cases shares with
  | bound run lives has settled =>
    unfold turn
    rw [settled]
    exact ⟨lease,rfl,.inl ⟨hosts.refl,.bound run lives has settled,by simp [Lease.isPending,has]⟩⟩
  | pending demand none wants found =>
    have shares : lease.Shares key live s := .pending demand none wants found
    have known := known demand wants
    have onward {t : State} (next : Bind) (carries : s.Carries key live t)
        (known : next.Shares policy media live demand lease.entry t) :
        s.Carries key live t ∧ lease.Shares key live t ∧
          ∀ demand', some demand = some demand' → next.Shares policy media live demand' lease.entry t := by
      refine ⟨carries,shares.grow carries.grows,fun demand' same => ?_⟩
      cases same
      exact known
    unfold turn
    rw [wants]
    cases phase with
    | begin => exact onward (.approaching _) hosts.refl trivial
    | approaching deadline =>
      have same := State.SameSessions.askLock s lease.entry
      exact onward (.locking deadline _ _) (hosts.same same) fun _ => same.calls lease.entry
    | locking deadline calls ticket =>
      dsimp only
      split
      · trivial
      · rename_i e locked
        obtain ⟨listed,bound,lives⟩ := hosts.locked found locked
        have freed := State.SameSessions.unlock s lease.entry ticket
        simp only [decide,listed,lives,Bool.false_eq_true,if_false]
        cases is : live with
        | some run => exact ⟨_,rfl,.inl ⟨is ▸ hosts.same freed,.bound run rfl rfl rfl,rfl⟩⟩
        | none =>
          subst is
          dsimp only
          split
          · rename_i overdue
            -- A request for a segment would have come first.
            have alone : media = Option.none := by
              by_contra sought
              have before := early sought rfl deadline calls ticket e rfl locked
              omega
            exact onward (.starting ticket _ .begin) hosts.refl ⟨alone,hosts.run_noteAt found⟩
          · have uncalled := (freed.calls lease.entry).trans (known rfl)
            exact onward (.waiting deadline calls) (hosts.same freed) (iff_of_true uncalled rfl)
    | waiting deadline calls =>
      dsimp only
      split
      · trivial
      · exact onward (.approaching deadline) hosts.refl trivial
    | starting ticket first phase =>
      obtain ⟨alone,stands⟩ := known
      refine (phase.turn_carries ticket hosts found stands).within ?_ ?_
      · rintro t next ⟨carries,found',stands'⟩
        exact onward (.starting ticket first next) carries ⟨alone,stands'⟩
      · rintro t _ ⟨run,rfl,launched⟩
        refine ⟨_,rfl,.inr ⟨alone,_,run,found,stands.unbound,launched,rfl,ticket,?_⟩⟩
        simp only [grip,wants]
        cases phase <;> rfl

/-- What the end of a call that shares a run gives: a lease that shares it too, or a lease for a run that is launched;
    the request for a segment launches it, if there is one. -/
inductive Call.Ends (policy : Policy) (key : Key) (media : Option Demand) (live : Option Nat) (s : State) (call : Call)
    (t : State) (given : Option Grant) : Prop
  | carries (carries : s.Carries key live t) (shares : ∀ grant, given = some grant → grant.lease.Shares key live t)
      (gives : call.IsAside ∨ ∃ grant, given = some grant ∧ (call.AsksHeader ∨ grant.lease.isPending = false))
      (other : call.seeks = false)
  | opens (grant : Grant) (o : Order) (run : Nat) (gives : given = some grant)
      (opens : grant.lease.Opens policy key s call.grip.hold o run t)
      (first : ∀ demand, media = some demand → call.seeks = true ∧ o.first = Acquire.index demand)

theorem Call.IsAside.shares {call : Call} (aside : call.IsAside) : call.Shares policy key media live s := by
  cases call with
  | mark lease index highest phase => trivial
  | report id found phase => trivial
  | _ => exact aside.elim

theorem Call.IsAside.seeks {call : Call} (aside : call.IsAside) : call.seeks = false := by
  cases call with
  | acquire demand phase => exact aside.elim
  | _ => rfl

/-- A turn of a call that shares the run of a key. -/
theorem Call.turn_shares {call : Call} (hosts : s.Hosts key live) (shares : call.Shares policy key media live s)
    (seeking : call.seeks = true → live = none)
    (early : media ≠ none → live = none → ∀ grant deadline calls ticket e,
      call = .bind grant (.locking deadline calls ticket) → s.locked? grant.lease.entry ticket = some e → clock.millis < deadline) :
    (call.turn policy clock s).Leads
      (fun t next => s.Carries key live t ∧ next.Shares policy key media live t ∧ next.seeks = call.seeks)
      (call.Ends policy key media live s) := by
  have asides (aside : call.IsAside) : (call.turn policy clock s).Leads
      (fun t next => s.Carries key live t ∧ next.Shares policy key media live t ∧ next.seeks = call.seeks)
      (call.Ends policy key media live s) := by
    refine (turn_same aside).mono ?_ ?_
    · rintro t next ⟨same,aside'⟩
      exact ⟨hosts.same same,aside'.shares,aside'.seeks.trans aside.seeks.symm⟩
    · rintro t _ ⟨same,rfl⟩
      exact .carries (hosts.same same) (fun grant is => by cases is) (.inl aside) aside.seeks
  cases call with
  | acquire demand phase =>
    obtain ⟨rfl,asked,shares⟩ := shares
    have seeks : demand.request ≠ .header ↔ seeks (.acquire demand phase) = true := by simp [Call.seeks]
    refine (phase.turn_shares hosts (fun other => seeking (seeks.mp other)) shares).within ?_ ?_
    · rintro t next ⟨carries,shares'⟩
      exact ⟨carries,⟨rfl,asked,shares'⟩,rfl⟩
    · rintro t _ ⟨lease,rfl,⟨header,carries,shares'⟩ | ⟨other,o,run,first,opens⟩⟩
      · refine .carries carries (fun grant is => ?_) (.inr ⟨_,rfl,.inl header⟩) (by simp [Call.seeks,header])
        cases is
        exact shares'
      · refine .opens _ o run rfl opens fun demand' is => ⟨seeks.mp other,?_⟩
        rcases asked with header | sought
        · exact absurd header other
        · cases sought.symm.trans is
          exact first
  | bind grant phase =>
    refine (phase.turn_shares hosts shares.1 shares.2 ?_).within ?_ ?_
    · rintro sought unbound deadline calls ticket e rfl locked
      exact early sought unbound grant deadline calls ticket e rfl locked
    · rintro t next ⟨carries,shares'⟩
      exact ⟨carries,shares',rfl⟩
    · rintro t _ ⟨lease,rfl,⟨carries,shares',settled⟩ | ⟨alone,o,run,opens⟩⟩
      · refine .carries carries (fun grant is => ?_) (.inr ⟨_,rfl,.inr settled⟩) rfl
        cases is
        exact shares'
      · exact .opens _ o run rfl opens fun demand sought => by cases alone.symm.trans sought
  | cleanUp phase => exact shares.elim
  | _ => exact asides trivial

/-! ### Who waits -/

/-- The binding of a lease waits for the lock, or to be called or overdue. -/
theorem Bind.turn_waits (phase : Bind) {lease : Lease} (idle : (phase.grip lease).hold.ticket? = none)
    (waits : (phase.turn policy clock lease s).Waits) :
    ∃ demand deadline calls, lease.pending = some demand ∧ phase = .waiting deadline calls ∧
      callsOf s lease.entry = calls ∧ clock.millis < deadline ∧
      phase.turn policy clock lease s = .blocked (some deadline) := by
  unfold turn grip at *
  cases pending : lease.pending with
  | none =>
    rw [pending] at waits
    exact waits.elim
  | some demand =>
    rw [pending] at waits idle
    cases phase with
    | begin => exact waits.elim
    | approaching deadline => exact waits.elim
    | locking deadline calls ticket => cases idle
    | waiting deadline calls =>
      dsimp only at waits ⊢
      split at waits
      · rename_i uncalled
        rw [if_pos uncalled]
        exact ⟨demand,deadline,calls,rfl,rfl,uncalled.1,uncalled.2,rfl⟩
      · exact waits.elim
    | starting ticket first phase => cases phase <;> cases idle

/-- A call that has asked for no lock waits only if it binds a lease, while no run is bound and it is not overdue. -/
theorem Call.turn_waits {call : Call} (shares : call.Shares policy key media live s)
    (idle : call.grip.hold.ticket? = none) (waits : (call.turn policy clock s).Waits) :
    live = none ∧ ∃ deadline, call.turn policy clock s = .blocked (some deadline) ∧ clock.millis < deadline := by
  cases call with
  | acquire demand phase =>
    refine absurd waits (Turn.not_waits_within (phase.turn_goes demand fun entry ticket is => ?_) (granted_goes demand))
    subst is
    cases idle
  | bind grant phase =>
    have waits' : (phase.turn policy clock grant.lease s).Waits := by
      by_contra goes
      exact Turn.not_waits_within goes (granted_goes grant.demand) waits
    obtain ⟨demand,deadline,calls,wants,is,uncalled,early,blocked⟩ := phase.turn_waits idle waits'
    have known := shares.2 demand wants
    subst is
    refine ⟨known.mp uncalled,deadline,?_,early⟩
    rw [turn,blocked]
    rfl
  | mark lease index highest phase =>
    have free (entry ticket : Nat) (has : (phase.grip lease).hold.ticket? = some (entry,ticket)) : False := by
      cases idle.symm.trans has
    exact absurd waits (Turn.not_waits_within
      (phase.turn_goes lease index highest fun entry ticket has => (free entry ticket has).elim) (fun _ _ => id))
  | report id found phase =>
    have free (entry ticket : Nat) (has : phase.grip.hold.ticket? = some (entry,ticket)) : False := by
      cases idle.symm.trans has
    exact absurd waits (Turn.not_waits_within
      (phase.turn_goes id found fun entry ticket has => (free entry ticket has).elim) (fun _ _ => False.elim))
  | cleanUp phase => exact shares.elim

/-! ### How many turns are left -/

/-- How many turns the binding of a lease has left. It comes back to the lock when it is called, and once more when it
    is overdue. -/
def Bind.turnsLeft (live : Option Nat) (clock : Clock) : Bind → Nat
  | begin => 13
  | approaching deadline => if live.isSome then 4 else if deadline ≤ clock.millis then 8 else 12
  | locking deadline _ _ => if live.isSome then 3 else if deadline ≤ clock.millis then 7 else 11
  | waiting _ _ => if live.isSome then 5 else 9
  | starting _ _ phase => phase.turnsLeft

/-- How many turns a call has left while a run is bound to the key, or none. -/
def Call.turnsAhead (live : Option Nat) (clock : Clock) : Call → Nat
  | bind _ phase => phase.turnsLeft live clock
  | call => call.turnsLeft

theorem Start.turnsLeft_pos (phase : Start) : 0 < phase.turnsLeft := by
  cases phase <;> exact Nat.succ_pos _

theorem Bind.turnsLeft_pos (phase : Bind) (live : Option Nat) (clock : Clock) : 0 < phase.turnsLeft live clock := by
  cases phase with
  | starting ticket first phase => exact phase.turnsLeft_pos
  | _ =>
    unfold turnsLeft
    grind

theorem Call.turnsAhead_pos {call : Call} (shares : call.Shares policy key media live s) (clock : Clock) :
    0 < call.turnsAhead live clock := by
  cases call with
  | acquire demand phase =>
    cases phase with
    | starting entry ticket phase => exact phase.turnsLeft_pos
    | _ => simp [turnsAhead,Call.turnsLeft,Acquire.turnsLeft]
  | bind grant phase => exact phase.turnsLeft_pos live clock
  | mark lease index highest phase => cases phase <;> simp [turnsAhead,Call.turnsLeft,Served.turnsLeft]
  | report id found phase => cases phase <;> simp [turnsAhead,Call.turnsLeft,Feedback.turnsLeft]
  | cleanUp phase => exact shares.elim

/-- Once a run is bound, no call has more turns left. -/
theorem Call.turnsAhead_le (call : Call) (run : Nat) (clock : Clock) :
    call.turnsAhead (some run) clock ≤ call.turnsAhead none clock := by
  cases call with
  | bind grant phase =>
    cases phase with
    | starting ticket first phase => exact Nat.le_refl _
    | _ =>
      simp only [turnsAhead,Bind.turnsLeft]
      grind
  | _ => exact Nat.le_refl _

/-- A turn of the binding of a lease brings it nearer to its end. -/
theorem Bind.turn_nearer (phase : Bind) {lease : Lease} (hosts : s.Hosts key live) (shares : lease.Shares key live s)
    (known : ∀ demand, lease.pending = some demand → phase.Shares policy media live demand lease.entry s) :
    (phase.turn policy clock lease s).Leads (fun _ next => next.turnsLeft live clock < phase.turnsLeft live clock)
      (fun _ _ => True) := by
  unfold turn
  cases shares with
  | bound run lives has settled =>
    rw [settled]
    trivial
  | pending demand none wants found =>
    have known := known demand wants
    rw [wants]
    cases phase with
    | begin =>
      simp only [Turn.Leads,turnsLeft]
      grind
    | approaching deadline =>
      simp only [Turn.Leads,turnsLeft]
      grind
    | locking deadline calls ticket =>
      dsimp only
      split
      · trivial
      · rename_i e locked
        obtain ⟨listed,bound,lives⟩ := hosts.locked found locked
        simp only [decide,listed,lives,Bool.false_eq_true,if_false]
        cases live with
        | some run => trivial
        | none =>
          dsimp only
          split
          · rename_i overdue
            simp [Turn.Leads,turnsLeft,Start.turnsLeft,overdue]
          · rename_i early
            simp [Turn.Leads,turnsLeft,early]
    | waiting deadline calls =>
      dsimp only
      split
      · trivial
      · rename_i woken
        cases live with
        | some run => exact (by decide : 4 < 5)
        | none =>
          have overdue : deadline ≤ clock.millis := Nat.le_of_not_lt fun early => woken ⟨known.mpr rfl,early⟩
          simp [Turn.Leads,turnsLeft,overdue]
    | starting ticket first phase =>
      refine (phase.turn_nearer _).within (fun _ _ nearer => nearer) (fun _ started _ => ?_)
      unfold settle
      dsimp only
      split <;> trivial

/-- A turn of a call that shares the run of a key brings it nearer to its end. -/
theorem Call.turn_ahead {call : Call} (hosts : s.Hosts key live) (shares : call.Shares policy key media live s)
    (seeking : call.seeks = true → live = none) :
    (call.turn policy clock s).Leads (fun _ next => next.turnsAhead live clock < call.turnsAhead live clock)
      (fun _ _ => True) := by
  cases call with
  | acquire demand phase =>
    obtain ⟨rfl,_,shares⟩ := shares
    have goes : (phase.turn policy clock demand s).Leads _ _ :=
      phase.turn_shares hosts (fun other => seeking (by simpa [seeks] using other)) shares
    have nearer := @Acquire.turn_nearer policy clock s phase demand
    rw [turn]
    cases turned : phase.turn policy clock demand s with
    | blocked wake => trivial
    | ends t r => cases r <;> trivial
    | goesOn t next =>
      rw [turned] at goes nearer
      rcases nearer with rfl | nearer
      · exact goes.2.elim
      · exact nearer
  | bind grant phase =>
    refine (phase.turn_nearer hosts shares.1 shares.2).within (fun _ _ nearer => nearer) (fun _ r _ => ?_)
    cases r <;> trivial
  | mark lease index highest phase =>
    exact Turn.Leads.within (phase.turn_nearer lease index highest) (fun _ _ nearer => nearer) (fun _ _ _ => trivial)
  | report id found phase =>
    exact Turn.Leads.within (phase.turn_nearer id found) (fun _ _ nearer => nearer) (fun _ _ _ => trivial)
  | cleanUp phase => exact shares.elim

end Playout.Playback
