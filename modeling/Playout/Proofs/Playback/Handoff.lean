import Mathlib.Algebra.Order.BigOperators.Group.Multiset
import Mathlib.Algebra.Order.Group.Nat
import Playout.Proofs.Playback.Sharing

/-!
The beginning of playback. The header of a rendering is asked for, any number of times, and
one segment may be asked for; the leases of the header are bound, and all that goes on beside
goes on, in any order (`Handoff`). All of them come to share one run: no more than one is
launched, whatever has happened so far (`Shared`), and nobody waits when there is one.
-/
namespace Playout.Playback

/-! ### A handoff -/

/-- Players that ask for the header of one session. -/
def Conduct.header (key : Key) : Conduct := ⟨fun demand => demand.key = key ∧ demand.request = .header,fun _ _ => True⟩

/-- Whether a request has been given the lock of its entry. -/
def Acquire.HasLock (s : State) : Acquire → Prop
  | locking entry ticket => (s.locked? entry ticket).isSome = true
  | listing .. | listed .. | starting .. => True
  | lookup | approaching _ | retrying => False

/-- Whether a call binds a lease and its deadline has passed. -/
def Call.isOverdue (clock : Clock) : Call → Bool
  | bind _ (.approaching deadline) | bind _ (.locking deadline ..) | bind _ (.waiting deadline _) =>
    deadline ≤ clock.millis
  | bind _ .begin | bind _ (.starting ..) | acquire .. | mark .. | report .. | cleanUp _ => false

def Call.cleans : Call → Bool
  | cleanUp _ => true
  | acquire .. | bind .. | mark .. | report .. => false

/-- Whether nobody is overdue before a request for a segment that is under way has been given the lock. -/
def Traffic.IsOnTime (w : Traffic) : Prop :=
  ∀ demand phase, .acquire demand phase ∈ w.calls → demand.request ≠ .header →
    phase.HasLock w.state ∨ ∀ call ∈ w.calls, call.isOverdue w.clock = false

/-- A handoff has come to a traffic. A request for a segment is about to be made from the beginning on, if one is made
    at all. The leases that there were are not among those of the traffic, and nothing becomes of them. -/
inductive Handoff (policy : Policy) (key : Key) (media : Option Demand) (start : Traffic) : Traffic → Prop
  | begins : Handoff policy key media start { start.joined (media.map (.acquire · .lookup)) 0 with grants := 0 }
  | goesOn {w w' : Traffic} (before : Handoff policy key media start w) (launches : w.state.Launches)
      (step : Traffic.Step policy (.header key) w w') (kept : ∀ call ∈ w'.calls, call.cleans = false)
      (onTime : w'.IsOnTime) : Handoff policy key media start w'

variable {policy : Policy} {key : Key} {media : Option Demand} {start w w' : Traffic} {live : Option Nat}
  {grants : Multiset Grant}

theorem Traffic.Step.free {conduct : Conduct} (step : Step policy conduct w w') : Step policy .free w w' := by
  cases step with
  | ask demand asked => exact .ask demand trivial
  | bind grant grants held => exact .bind grant grants held
  | drop grant grants held => exact .drop grant grants held
  | mark grant held index highest marked => exact .mark grant held index highest trivial
  | report run report => exact .report run report
  | cleanUp => exact .cleanUp
  | goesOn call calls going turned => exact .goesOn call calls going turned
  | ends call calls going turned => exact .ends call calls going turned
  | task number turned => exact .task number turned
  | happen event => exact .happen event
  | wait clock millis nanos => exact .wait clock millis nanos

theorem Handoff.reachable (handoff : Handoff policy key media start w) (reached : start.Reachable policy .free) :
    (w.joined none start.grants).Reachable policy .free := by
  induction handoff with
  | begins =>
    have given : (0 : Multiset Grant) + start.grants = start.grants := Multiset.zero_add _
    unfold Traffic.joined
    simp only [given]
    cases media with
    | none => exact reached
    | some demand => exact reached.tail (.ask demand trivial)
  | goesOn before launches step kept onTime ih => exact ih.tail (step.free.joined none start.grants)

/-! ### Who is first at a lock -/

/-- Whether a call stands first in the queue of the lock of an entry. -/
def Call.IsFirst (s : State) (entry : Nat) (call : Call) : Prop :=
  ∃ ticket, call.grip.hold.ticket? = some (entry,ticket) ∧ (ticketsAt s.skeleton.locks entry).head? = some ticket

namespace Traffic.IsSound

variable {call other : Call} {calls : Multiset Call} {entry ticket : Nat} (sound : (w.joined none grants).IsSound)

include sound

/-- A call that has passed a lock is first there. -/
theorem first_of_entered (going : call ∈ w.calls) (entered : call.grip.hold.entered? = some (entry,ticket)) :
    call.IsFirst w.state entry := by
  refine ⟨ticket,Hold.ticket?_of_entered? entered,sound.queued.heads _ ?_ entry ticket entered⟩
  exact Multiset.mem_map_of_mem _ (Multiset.mem_add.mpr (.inl (Multiset.mem_map_of_mem Call.grip going)))

/-- No two calls are first at one lock. -/
theorem one_first (going : w.calls = call ::ₘ calls) (first : call.IsFirst w.state entry) (member : other ∈ calls) :
    ¬ other.IsFirst w.state entry := by
  obtain ⟨ticket,has,head⟩ := first
  rintro ⟨ticket',has',head'⟩
  cases head.symm.trans head'
  have grips : (w.joined none grants).grips =
      call.grip ::ₘ (calls.map Call.grip + (w.grants + grants).map (·.lease.grip)) := by
    rw [grips,← Multiset.cons_add,← Multiset.map_cons Call.grip,← going]
    rfl
  have queued := sound.queued
  rw [grips,Multiset.map_cons] at queued
  refine queued.apart has (Multiset.mem_map_of_mem _ ?_) has'
  exact Multiset.mem_add.mpr (.inl (Multiset.mem_map_of_mem Call.grip member))

end Traffic.IsSound

/-! ### What is shared -/

/-- How a handoff stands: one run was launched and is bound to the key, or none. The request for a segment is under way
    until one is. -/
structure Shared (policy : Policy) (key : Key) (media : Option Demand) (start : State) (live : Option Nat)
    (w : Traffic) : Prop where
  launches : w.state.launches = start.launches ++ live.toList
  destroyed : start.skeleton.destroyed <+: w.state.skeleton.destroyed
  run : (w.state.noteOf key).run = live
  first : ∀ run demand, live = some run → media = some demand →
    ∃ job, w.state.skeleton.jobs[run]? = some job ∧ job.first = Acquire.index demand
  calls : ∀ call ∈ w.calls, call.Shares policy key media live w.state
  grants : ∀ grant ∈ w.grants, grant.lease.Shares key live w.state
  seeking : w.calls.countP (·.seeks = true) = if live.isNone then media.toList.length else 0

namespace Shared

variable {first : State} (shared : Shared policy key media first live w)

include shared

theorem kept (phase : Cleanup) : .cleanUp phase ∉ w.calls := fun member => shared.calls _ member

theorem unbound_of_seeks {call : Call} (going : call ∈ w.calls) (seeks : call.seeks = true) : live = none := by
  have counted : 0 < w.calls.countP (·.seeks = true) := Multiset.countP_pos.mpr ⟨call,going,seeks⟩
  rw [shared.seeking] at counted
  cases live with
  | none => rfl
  | some run => exact absurd counted (Nat.lt_irrefl 0)

theorem boundTo? : w.state.boundTo? key = live := (w.state.run_noteOf key).symm.trans shared.run

theorem alive (sound : (w.joined none grants).IsSound) {run : Nat} (lives : live = some run) :
    w.state.isDestroyed run = false := by
  have bound := shared.boundTo?.trans lives
  rw [State.boundTo?_eq,Option.bind_eq_some_iff] at bound
  obtain ⟨entry,_,bound⟩ := bound
  exact sound.alive_of_bound bound

theorem isDestroyed {run : Nat} (before : first.isDestroyed run = false) : w.state.isDestroyed run = false := by
  rw [State.isDestroyed_skeleton] at before ⊢
  obtain ⟨more,destroyed⟩ := shared.destroyed
  rw [Skeleton.isDestroyed,← destroyed,List.getElem?_append_left (Skeleton.lt_of_alive before)]
  exact before

/-- While no run was launched, the request for a segment is under way. -/
theorem seeks (sought : media ≠ none) (unbound : live = none) : ∃ call ∈ w.calls, call.seeks = true := by
  obtain ⟨demand,rfl⟩ := Option.ne_none_iff_exists'.mp sought
  subst unbound
  refine Multiset.countP_pos.mp ?_
  rw [shared.seeking]
  exact Nat.one_pos

theorem hosts (sound : (w.joined none grants).IsSound) (launches : w.state.Launches) : w.state.Hosts key live where
  launches := launches
  stays _ found := sound.stays shared.kept found
  run := shared.run
  alive _ lives := shared.alive sound lives

/-- While no run is launched, and others come and go. -/
theorem carry (carries : w.state.Carries key live w'.state)
    (calls : ∀ call ∈ w'.calls, call ∈ w.calls ∨ call.Shares policy key media live w'.state)
    (grants : ∀ grant ∈ w'.grants, grant ∈ w.grants ∨ grant.lease.Shares key live w'.state)
    (seeking : w'.calls.countP (·.seeks = true) = w.calls.countP (·.seeks = true)) :
    Shared policy key media first live w' where
  launches := carries.grows.launches.trans shared.launches
  destroyed := shared.destroyed.trans carries.grows.destroyed
  run := carries.run
  first run demand lives sought := by
    obtain ⟨job,ordered,from_index⟩ := shared.first run demand lives sought
    exact ⟨job,getElem?_of_grows carries.grows.jobs ordered,from_index⟩
  calls call member := by
    rcases calls call member with old | shares
    · exact (shared.calls call old).grow carries.grows
    · exact shares
  grants grant member := by
    rcases grants grant member with old | shares
    · exact (shared.grants grant old).grow carries.grows
    · exact shares
  seeking := seeking.trans shared.seeking

/-- A call launches a run. -/
theorem launch (sound : (w.joined none grants).IsSound) {call : Call} {calls : Multiset Call}
    (going : w.calls = call ::ₘ calls) {s : State} {grant : Grant} {o : Order} {run : Nat}
    (opens : grant.lease.Opens policy key w.state call.grip.hold o run s)
    (sought : ∀ demand, media = some demand → call.seeks = true ∧ o.first = Acquire.index demand) (makers : List Key) :
    live = none ∧ Shared policy key media first (some run)
      ⟨s,w.clock,calls,{grant} + w.grants,makers⟩ := by
  obtain ⟨found,unbound,launched,is,ticket,inside⟩ := opens
  have idle : live = none := by
    rw [← unbound,← State.noteOf_of_found found]
    exact shared.run.symm
  subst idle
  -- Whoever launches a run is first at the lock, so nobody else is about to launch one.
  have is_first := sound.first_of_entered (going ▸ Multiset.mem_cons_self call calls) inside
  have among {other : Call} (member : other ∈ calls) : other ∈ w.calls := going ▸ Multiset.mem_cons_of_mem member
  have same : s.find? key = w.state.find? key := by
    rw [State.find?,launched.table]
    rfl
  refine ⟨rfl,?_,?_,?_,?_,?_,?_,?_⟩
  · rw [launched.launches,shared.launches]
    simp
  · have kept : s.skeleton.destroyed = w.state.skeleton.destroyed := launched.destroyed
    rw [kept]
    exact shared.destroyed
  · exact congrArg Note.run (launched.noteOf found).2
  · intro run' demand lives wants
    cases lives
    exact ⟨_,launched.jobs ▸ launched.made,(sought demand wants).2⟩
  · intro other member
    refine (shared.calls other (among member)).launch launched found fun ticket entered => ?_
    exact sound.one_first going is_first member (sound.first_of_entered (among member) entered)
  · intro other member
    rcases Multiset.mem_add.mp member with new | old
    · rw [Multiset.mem_singleton.mp new]
      exact .bound run rfl (by rw [is]) (by rw [is])
    · exact (shared.grants other old).launch same
  · have counted := shared.seeking
    rw [going,Multiset.countP_cons] at counted
    cases media with
    | none => exact (Nat.add_eq_zero_iff.mp counted).1
    | some demand =>
      rw [if_pos (sought demand rfl).1] at counted
      simpa using counted

theorem first_of_hasLock (sound : (w.joined none grants).IsSound) {demand : Demand} {phase : Acquire} {entry : Nat}
    (going : .acquire demand phase ∈ w.calls) (has : phase.HasLock w.state) (found : w.state.find? key = some entry) :
    Call.IsFirst w.state entry (.acquire demand phase) := by
  obtain ⟨rfl,_,known⟩ := shared.calls _ going
  cases phase with
  | locking entry ticket =>
    cases found.symm.trans known
    obtain ⟨e,locked⟩ := Option.isSome_iff_exists.mp has
    exact ⟨ticket,rfl,State.head_of_locked locked⟩
  | starting entry ticket phase =>
    cases found.symm.trans known.1
    refine sound.first_of_entered going (show _ = some (entry,ticket) from ?_)
    cases phase <;> rfl
  | listing entry ticket run => exact known.elim
  | listed entry ticket run holds => exact known.elim
  | _ => exact has.elim

/-- While a request for a segment is under way, no binding that has come to the lock is overdue. -/
theorem early (sound : (w.joined none grants).IsSound) (onTime : w.IsOnTime) (sought : media ≠ none)
    (unbound : live = none) {grant : Grant} {deadline calls ticket : Nat} {e : Entry}
    (going : .bind grant (.locking deadline calls ticket) ∈ w.calls)
    (locked : w.state.locked? grant.lease.entry ticket = some e) : w.clock.millis < deadline := by
  obtain ⟨call,member,seeks⟩ := shared.seeks sought unbound
  subst unbound
  cases call with
  | acquire demand' phase =>
    rcases onTime demand' phase member (by simpa [Call.seeks] using seeks) with has | early
    · -- If the request has the lock, the binding is not first there.
      cases (shared.calls _ going).1 with
      | bound run lives => cases lives
      | pending demand'' _ wants found =>
        have binds : Call.IsFirst w.state grant.lease.entry (.bind grant (.locking deadline calls ticket)) := by
          refine ⟨ticket,?_,State.head_of_locked locked⟩
          simp only [Call.grip,Bind.grip,wants]
          rfl
        have asks := shared.first_of_hasLock sound member has found
        obtain ⟨rest,is⟩ := Multiset.exists_cons_of_mem going
        rw [is] at member
        rcases Multiset.mem_cons.mp member with same | among
        · cases same
        · exact absurd asks (sound.one_first is binds among)
    · simpa [Call.isOverdue] using early _ going
  | _ => cases seeks

/-- A turn of a call of a handoff. -/
theorem turn (sound : (w.joined none grants).IsSound) (launches : w.state.Launches) (onTime : w.IsOnTime) {call : Call}
    (going : call ∈ w.calls) :
    (call.turn policy w.clock w.state).Leads
      (fun t next => w.state.Carries key live t ∧ next.Shares policy key media live t ∧ next.seeks = call.seeks)
      (call.Ends policy key media live w.state) := by
  refine Call.turn_shares (shared.hosts sound launches) (shared.calls call going) (shared.unbound_of_seeks going) ?_
  rintro sought unbound grant deadline calls ticket e rfl locked
  exact shared.early sound onTime sought unbound going locked

/-- A call begins that is no request for a segment. -/
theorem join (hosts : w.state.Hosts key live) (call : Call) (shares : call.Shares policy key media live w.state)
    (other : call.seeks = false) {rest : Multiset Grant} (held : ∀ grant ∈ rest, grant ∈ w.grants) :
    Shared policy key media first live { w with calls := call ::ₘ w.calls, grants := rest } := by
  refine shared.carry hosts.refl (fun call' member => ?_) (fun grant member => .inl (held grant member)) ?_
  · rcases Multiset.mem_cons.mp member with rfl | old
    · exact .inr shares
    · exact .inl old
  · exact Multiset.countP_cons_of_neg _ (by simp [other])

/-- One step of a handoff. -/
theorem step (sound : (w.joined none grants).IsSound) (launches : w.state.Launches) (onTime : w.IsOnTime)
    (step : Traffic.Step policy (.header key) w w') (kept : ∀ call ∈ w'.calls, call.cleans = false) :
    ∃ live, Shared policy key media first live w' := by
  have hosts := shared.hosts sound launches
  have working : w.state.skeleton.isShuttingDown = false := sound.listed.working
  cases step with
  | ask demand asked =>
    refine ⟨live,shared.join hosts (.acquire demand .lookup) ⟨asked.1,.inl asked.2,trivial⟩ ?_ (fun _ held => held)⟩
    simp [Call.seeks,asked.2]
  | bind grant rest held =>
    have given := shared.grants grant (held ▸ Multiset.mem_cons_self grant rest)
    refine ⟨live,shared.join hosts (.bind grant .begin) ⟨given,fun _ _ => trivial⟩ rfl fun other member => ?_⟩
    exact held ▸ Multiset.mem_cons_of_mem member
  | drop grant rest held =>
    have same : w.state.SameSessions (w.state.drop w.clock grant.lease) := .letGo w.state w.clock grant.lease.entry
    refine ⟨live,shared.carry (hosts.same same) (fun call member => .inl member) (fun other member => .inl ?_) rfl⟩
    exact held ▸ Multiset.mem_cons_of_mem member
  | mark grant held index highest marked =>
    exact ⟨live,shared.join hosts (.mark grant.lease index highest .begin) trivial rfl fun _ held => held⟩
  | report run report => exact ⟨live,shared.join hosts (.report run report .lookup) trivial rfl fun _ held => held⟩
  | cleanUp => cases kept _ (Multiset.mem_cons_self _ _)
  | @goesOn call calls going s next turned =>
    have leads := shared.turn sound launches onTime (going ▸ Multiset.mem_cons_self call calls)
    rw [turned] at leads
    obtain ⟨carries,shares,seeks⟩ := leads
    refine ⟨live,shared.carry carries (fun other member => ?_) (fun grant member => .inl member) ?_⟩
    · rcases Multiset.mem_cons.mp member with rfl | old
      · exact .inr shares
      · exact .inl (going ▸ Multiset.mem_cons_of_mem old)
    · simp only [going,Multiset.countP_cons,seeks]
  | @ends call calls going s given turned =>
    have leads := shared.turn sound launches onTime (going ▸ Multiset.mem_cons_self call calls)
    rw [turned] at leads
    cases leads with
    | carries carries shares gives other =>
      refine ⟨live,shared.carry carries (fun other member => .inl ?_) (fun grant member => ?_) ?_⟩
      · exact going ▸ Multiset.mem_cons_of_mem member
      · rcases Multiset.mem_add.mp member with new | old
        · cases given with
          | none => cases new
          | some grant' =>
            rw [Multiset.mem_singleton.mp new]
            exact .inr (shares grant' rfl)
        · exact .inl old
      · simp [going,other]
    | opens grant o run gives opens sought =>
      subst gives
      exact ⟨some run,(shared.launch sound going opens sought _).2⟩
  | task number turned =>
    have same := State.SameSessions.taskTurn working turned
    exact ⟨live,shared.carry (hosts.same same) (fun _ member => .inl member) (fun _ member => .inl member) rfl⟩
  | happen event =>
    have same := State.SameSessions.event event w.state
    exact ⟨live,shared.carry (hosts.same same) (fun _ member => .inl member) (fun _ member => .inl member) rfl⟩
  | wait clock millis nanos =>
    exact ⟨live,shared.carry hosts.refl (fun _ member => .inl member) (fun _ member => .inl member) rfl⟩

/-- A call that cannot take a turn waits for one that can, or it binds a lease, while no run is bound and it is not
    overdue. -/
theorem waits (sound : (w.joined none grants).IsSound) {call : Call} (going : call ∈ w.calls)
    (waits : (call.turn policy w.clock w.state).Waits) :
    (∃ other ∈ w.calls, ¬ (other.turn policy w.clock w.state).Waits) ∨
      (live = none ∧
        ∃ deadline, call.turn policy w.clock w.state = .blocked (some deadline) ∧ w.clock.millis < deadline) := by
  cases has : call.grip.hold.ticket? with
  | some place => exact .inl (sound.someone_turns going has)
  | none => exact .inr (Call.turn_waits (shared.calls call going) has waits)

end Shared

/-- How many turns the calls on a traffic have left while nobody else comes. -/
def Traffic.turnsAhead (key : Key) (w : Traffic) : Nat :=
  (w.calls.map (·.turnsAhead (w.state.boundTo? key) w.clock)).sum

namespace Shared

variable {first : State} (shared : Shared policy key media first live w)

include shared

/-- Every turn brings the calls nearer to their end, and none fails. -/
theorem turn_ahead (sound : (w.joined none grants).IsSound) (launches : w.state.Launches) (onTime : w.IsOnTime)
    {call : Call} {calls : Multiset Call} (going : w.calls = call ::ₘ calls) :
    (call.turn policy w.clock w.state).Leads
      (fun s next => Traffic.turnsAhead key { w with state := s, calls := next ::ₘ calls } < w.turnsAhead key)
      (fun s given => Traffic.turnsAhead key { w with state := s, calls := calls } < w.turnsAhead key ∧
        (call.IsAside ∨ ∃ grant, given = some grant ∧
          (call.AsksHeader ∨ ∃ run, grant.lease.run = some run ∧ s.boundTo? key = some run))) := by
  have hosts := shared.hosts sound launches
  have member : call ∈ w.calls := going ▸ Multiset.mem_cons_self call calls
  have seeking := shared.unbound_of_seeks member
  have goes := shared.turn sound launches onTime member
  have nearer := @Call.turn_ahead policy w.clock key media live w.state call hosts (shared.calls call member) seeking
  have bound := shared.boundTo?
  have before : w.turnsAhead key = call.turnsAhead live w.clock + (calls.map (·.turnsAhead live w.clock)).sum := by
    rw [Traffic.turnsAhead,going,bound,Multiset.map_cons,Multiset.sum_cons]
  have positive := Call.turnsAhead_pos (shared.calls call member) w.clock
  rw [before]
  cases turned : call.turn policy w.clock w.state with
  | blocked wake => trivial
  | goesOn s next =>
    rw [turned] at goes nearer
    have still : s.boundTo? key = live := (s.run_noteOf key).symm.trans goes.1.run
    simp only [Turn.Leads,Traffic.turnsAhead,still,Multiset.map_cons,Multiset.sum_cons]
    exact Nat.add_lt_add_right nearer _
  | ends s given =>
    rw [turned] at goes
    simp only [Turn.Leads,Traffic.turnsAhead]
    cases goes with
    | carries carries shares gives other =>
      have still : s.boundTo? key = live := (s.run_noteOf key).symm.trans carries.run
      rw [still]
      refine ⟨Nat.lt_add_of_pos_left positive,gives.imp_right ?_⟩
      rintro ⟨grant,rfl,settled⟩
      exact ⟨grant,rfl,settled.imp_right (shares grant rfl).settled⟩
    | opens grant o run gives opens sought =>
      obtain ⟨rfl,after⟩ := shared.launch sound going opens sought []
      have bound : s.boundTo? key = some run := (s.run_noteOf key).symm.trans after.run
      have fewer : (calls.map (·.turnsAhead (some run) w.clock)).sum ≤ (calls.map (·.turnsAhead none w.clock)).sum :=
        Multiset.sum_map_le_sum_map _ _ fun other _ => other.turnsAhead_le run w.clock
      rw [bound]
      refine ⟨Nat.lt_of_le_of_lt fewer (Nat.lt_add_of_pos_left positive),.inr ⟨grant,gives,.inr ⟨run,?_,rfl⟩⟩⟩
      rw [opens.lease]

end Shared

/-! ### Every handoff -/

namespace Handoff

theorem onTime (idle : ∀ call ∈ start.calls, call.IsAside) (handoff : Handoff policy key media start w) :
    w.IsOnTime := by
  cases handoff with
  | begins =>
    refine fun _ _ _ _ => .inr fun call member => ?_
    have aside {call : Call} (member : call ∈ start.calls) : call.isOverdue start.clock = false := by
      have aside := idle call member
      cases call with
      | bind grant phase => exact aside.elim
      | _ => rfl
    cases media with
    | none => exact aside member
    | some demand =>
      rcases Multiset.mem_cons.mp member with rfl | old
      · rfl
      · exact aside old
  | goesOn before launches step kept onTime => exact onTime

/-- In every handoff, one run was launched or none. -/
theorem shared (reached : start.Reachable policy .free) (idle : ∀ call ∈ start.calls, call.IsAside)
    (unbound : start.state.boundTo? key = none)
    (sought : ∀ demand, media = some demand → demand.key = key ∧ ∃ index, demand.request = .segment index)
    (handoff : Handoff policy key media start w) : ∃ live, Shared policy key media start.state live w := by
  induction handoff with
  | begins =>
    have quiet : start.calls.countP (·.seeks = true) = 0 :=
      Multiset.countP_eq_zero.mpr fun call member => by simp [(idle call member).seeks]
    refine ⟨none,(List.append_nil _).symm,List.prefix_refl _,(start.state.run_noteOf key).trans unbound,
      fun _ _ lives => (by cases lives),?_,fun _ held => (by cases held),?_⟩
    · intro call member
      cases media with
      | none => exact (idle call member).shares
      | some demand =>
        rcases Multiset.mem_cons.mp member with rfl | old
        · exact ⟨(sought demand rfl).1,.inr rfl,trivial⟩
        · exact (idle call old).shares
    · cases media with
      | none => exact quiet
      | some demand =>
        obtain ⟨index,request⟩ := (sought demand rfl).2
        have seeks : Call.seeks (.acquire demand .lookup) = true := by simp [Call.seeks,request]
        have counted : (Call.acquire demand .lookup ::ₘ start.calls).countP (·.seeks = true) = 1 := by
          rw [Multiset.countP_cons,quiet,if_pos seeks]
        exact counted
  | goesOn before launches step kept onTime ih =>
    obtain ⟨live,shared⟩ := ih
    exact shared.step (Traffic.sound_of_reachable (before.reachable reached)) launches (before.onTime idle) step kept

/-- The header of a rendering is asked for any number of times, where no run was bound, and one segment may be asked
    for, too. Whatever has happened so far, at most one run was launched; it is bound, begins at the segment that was
    asked for, and no run was destroyed. Every lease whose run was chosen is for that run, and when all calls have come
    to their end and a run was needed, it is there. And all calls do come to their end: each turn brings them nearer,
    none fails, and one that cannot take a turn waits for one that can, or for its deadline while there is no run. -/
theorem calls_share_one_run (reached : start.Reachable policy .free) (idle : ∀ call ∈ start.calls, call.IsAside)
    (unbound : start.state.boundTo? key = none)
    (sought : ∀ demand, media = some demand → demand.key = key ∧ ∃ index, demand.request = .segment index)
    (handoff : Handoff policy key media start w) :
    w.state.launches = start.state.launches ++ (w.state.boundTo? key).toList ∧
    (∀ run, start.state.isDestroyed run = false → w.state.isDestroyed run = false) ∧
    (∀ run, w.state.boundTo? key = some run → w.state.isDestroyed run = false ∧
      ∀ demand, media = some demand → ∃ r, w.state.runs[run]? = some r ∧ demand.request = .segment r.job.first) ∧
    (∀ grant ∈ w.grants, grant.lease.isPending = false → grant.lease.run = w.state.boundTo? key) ∧
    ((∀ call ∈ w.calls, call.IsAside) → (media ≠ none ∨ ∃ grant ∈ w.grants, grant.lease.isPending = false) →
      ∃ run, w.state.boundTo? key = some run) ∧
    (w.state.Launches → ∀ call calls, w.calls = call ::ₘ calls → (call.turn policy w.clock w.state).Leads
      (fun s next => Traffic.turnsAhead key { w with state := s, calls := next ::ₘ calls } < w.turnsAhead key)
      (fun s given => Traffic.turnsAhead key { w with state := s, calls := calls } < w.turnsAhead key ∧
        (call.IsAside ∨ ∃ grant, given = some grant ∧
          (call.AsksHeader ∨ ∃ run, grant.lease.run = some run ∧ s.boundTo? key = some run)))) ∧
    ∀ call ∈ w.calls, (call.turn policy w.clock w.state).Waits →
      (∃ other ∈ w.calls, ¬ (other.turn policy w.clock w.state).Waits) ∨
        (w.state.boundTo? key = none ∧
          ∃ deadline, call.turn policy w.clock w.state = .blocked (some deadline) ∧ w.clock.millis < deadline) := by
  obtain ⟨live,shared⟩ := handoff.shared reached idle unbound sought
  have sound := Traffic.sound_of_reachable (handoff.reachable reached)
  have bound := shared.boundTo?
  refine ⟨?_,fun _ => shared.isDestroyed,?_,?_,?_,?_,?_⟩
  · rw [bound]
    exact shared.launches
  · intro run is
    refine ⟨shared.alive sound (bound.symm.trans is),fun demand wants => ?_⟩
    obtain ⟨job,ordered,from_index⟩ := shared.first run demand (bound.symm.trans is) wants
    obtain ⟨r,found,rfl⟩ := State.run_of_job ordered
    obtain ⟨index,request⟩ := (sought demand wants).2
    refine ⟨r,found,?_⟩
    rw [from_index,Acquire.index_eq request]
    exact request
  · intro grant held settled
    obtain ⟨run,has,lives⟩ := (shared.grants grant held).settled settled
    rw [has,bound,lives]
  · intro ended needed
    rw [bound]
    rcases needed with wanted | ⟨grant,held,settled⟩
    · by_contra unlaunched
      have none : live = none := Option.eq_none_iff_forall_ne_some.mpr fun run is => unlaunched ⟨run,is⟩
      obtain ⟨call,going,seeks⟩ := shared.seeks wanted none
      cases seeks.symm.trans (ended call going).seeks
    · obtain ⟨run,_,lives⟩ := (shared.grants grant held).settled settled
      exact ⟨run,lives⟩
  · exact fun launches call calls going => shared.turn_ahead sound launches (handoff.onTime idle) going
  · intro call going waits
    rw [bound]
    exact shared.waits sound going waits

def seek : Demand := { Traffic.shortFilm with request := .segment 1 }

/-- The header is asked for, and its lease is waiting to be called when the second segment is asked for. The request for
    the segment launches the run, and the lease is bound to it. -/
theorem header_waits_for_segment :
    ∃ w : Traffic, Handoff (.ofConfig {}) seek.key (some seek) {} w ∧ w.calls = 0 ∧ w.state.launches = [0] ∧
      (∀ grant ∈ w.grants, grant.lease.run = some 0) ∧ ∃ r, w.state.runs[0]? = some r ∧ r.job.first = 1 := by
  let header : Demand := { seek with request := .header }
  let lease : Grant := ⟨header,⟨0,none,some header⟩⟩
  let coming : Multiset Call := {.acquire seek .lookup}
  let waiting : Multiset Call := {.bind lease (.waiting 1000 0)}
  have calm {w : Traffic} (calm : ∀ call ∈ w.calls, call.isOverdue w.clock = false) : w.IsOnTime :=
    fun _ _ _ _ => .inr calm
  have turn {w : Traffic} (before : Handoff (.ofConfig {}) seek.key (some seek) {} w) (call : Call)
      (calls : Multiset Call) {s : State} {next : Call} (going : w.calls = call ::ₘ calls) (launches : w.state.Launches)
      (turned : call.turn (.ofConfig {}) w.clock w.state = .goesOn s next)
      (kept : ∀ other ∈ next ::ₘ calls, other.cleans = false)
      (early : ∀ other ∈ next ::ₘ calls, other.isOverdue w.clock = false) :
      Handoff (.ofConfig {}) seek.key (some seek) {}
        { w with state := s, calls := next ::ₘ calls, makers := w.makersAfter call s } :=
    before.goesOn launches (.goesOn call calls going turned) kept (calm early)
  have begun : Handoff (.ofConfig {}) seek.key (some seek) {} _ := .begins
  have asked := begun.goesOn ⟨rfl,rfl,rfl⟩ (.ask header ⟨rfl,rfl⟩) (by decide) (calm (by decide))
  have found := turn asked (.acquire header .lookup) coming rfl ⟨rfl,rfl,rfl⟩ rfl (by decide) (by decide)
  have queued := turn found (.acquire header (.approaching 0)) coming rfl ⟨rfl,rfl,rfl⟩ rfl (by decide) (by decide)
  have pending := queued.goesOn ⟨rfl,rfl,rfl⟩ (.ends (.acquire header (.locking 0 0)) coming rfl rfl) (by decide)
    (calm (by decide))
  have binds := pending.goesOn ⟨rfl,rfl,rfl⟩ (.bind lease 0 rfl) (by decide) (calm (by decide))
  have started := turn binds (.bind lease .begin) coming rfl ⟨rfl,rfl,rfl⟩ rfl (by decide) (by decide)
  have comes := turn started (.bind lease (.approaching 1000)) coming rfl ⟨rfl,rfl,rfl⟩ rfl (by decide) (by decide)
  have waits := turn comes (.bind lease (.locking 1000 0 1)) coming rfl ⟨rfl,rfl,rfl⟩ rfl (by decide) (by decide)
  have swap : .bind lease (.waiting 1000 0) ::ₘ coming = .acquire seek .lookup ::ₘ waiting := Multiset.cons_swap _ _ 0
  have sought := turn waits (.acquire seek .lookup) waiting swap ⟨rfl,rfl,rfl⟩ rfl (by decide) (by decide)
  have queued' := turn sought (.acquire seek (.approaching 0)) waiting rfl ⟨rfl,rfl,rfl⟩ rfl (by decide) (by decide)
  have inside := turn queued' (.acquire seek (.locking 0 2)) waiting rfl ⟨rfl,rfl,rfl⟩ rfl (by decide) (by decide)
  have unbound := turn inside (.acquire seek (.starting 0 2 .begin)) waiting rfl ⟨rfl,rfl,rfl⟩ rfl (by decide)
    (by decide)
  have rooted := turn unbound (.acquire seek (.starting 0 2 (.makeRoot none))) waiting rfl ⟨rfl,rfl,rfl⟩ rfl
    (by decide) (by decide)
  have made := turn rooted (.acquire seek (.starting 0 2 (.makeDirectory none))) waiting rfl ⟨rfl,rfl,rfl⟩ rfl
    (by decide) (by decide)
  have served := made.goesOn ⟨rfl,rfl,rfl⟩ (.ends (.acquire seek (.starting 0 2 (.launch none 0))) waiting rfl rfl)
    (by decide) (calm (by decide))
  have called := turn served (.bind lease (.waiting 1000 0)) 0 rfl ⟨rfl,rfl,rfl⟩ rfl (by decide) (by decide)
  have back := turn called (.bind lease (.approaching 1000)) 0 rfl ⟨rfl,rfl,rfl⟩ rfl (by decide) (by decide)
  have bound := back.goesOn ⟨rfl,rfl,rfl⟩ (.ends (.bind lease (.locking 1000 1 3)) 0 rfl rfl) (by decide)
    (calm (by decide))
  obtain ⟨launched,_,lives,_⟩ := calls_share_one_run .refl (fun _ going => by cases going) rfl
    (fun demand is => by cases is; exact ⟨rfl,1,rfl⟩) bound
  obtain ⟨r,found,request⟩ := (lives 0 rfl).2 seek rfl
  exact ⟨_,bound,rfl,launched,by decide,r,found,(SegmentRequest.segment.inj request).symm⟩

end Handoff
end Playout.Playback
