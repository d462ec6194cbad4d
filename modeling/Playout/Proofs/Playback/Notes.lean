import Playout.Proofs.Playback.Orders
import Playout.Proofs.Playback.References
import Playout.Proofs.Representation.Lookup

/-!
What the entries note of their players: the run that is bound, the last segment that
was asked for and the last one that was served. Only who has the turn at the lock of
an entry writes there (`Hold.HasTurn`), and what he writes goes on from what was noted
before (`Note.Goes`). What a call has read under a lock is still true when it writes,
since nobody else has had the turn meanwhile (`Call.Knows`).
-/
namespace Playout.Playback

/-- Whether a segment is in the range of a run. -/
def Reaches (jobs : List Encoder.Job) (run index : Nat) : Prop :=
  ∃ job, jobs[run]? = some job ∧ job.first ≤ index ∧ index < job.last

theorem getElem?_of_grows {jobs jobs' : List Encoder.Job} {run : Nat} {job : Encoder.Job} (grows : jobs <+: jobs')
    (found : jobs[run]? = some job) : jobs'[run]? = some job := by
  obtain ⟨news,rfl⟩ := grows
  exact (List.getElem?_append_left (List.getElem?_eq_some_iff.mp found).1).trans found

theorem Reaches.grow {jobs jobs' : List Encoder.Job} {run index : Nat} (reaches : Reaches jobs run index)
    (grows : jobs <+: jobs') : Reaches jobs' run index := by
  obtain ⟨job,found,covers⟩ := reaches
  exact ⟨job,getElem?_of_grows grows found,covers⟩

/-- What an entry notes of its player. -/
structure Note where
  run : Option Nat := none
  requested : Nat := 0
  served : Option Nat := none

def Entry.note (e : Entry) : Note := ⟨e.run,e.lastRequested,e.lastServed⟩

namespace Note

/-- What is noted of a run is in its range, and no more was served than was asked for. -/
def Agrees (jobs : List Encoder.Job) (n : Note) : Prop :=
  ∀ run, n.run = some run → ∃ job, jobs[run]? = some job ∧ (job.first ≤ n.requested ∧ n.requested < job.last) ∧
    ∀ index, n.served = some index → job.first ≤ index ∧ index ≤ n.requested

/-- A run can be asked for a segment that is in its range and not before the last one that was asked for. -/
structure Suits (jobs : List Encoder.Job) (n : Note) (run index : Nat) : Prop where
  bound : n.run = some run
  onward : n.requested ≤ index
  reaches : Reaches jobs run index

/-- What becomes of a note by one turn. -/
inductive Goes (jobs : List Encoder.Job) (n : Note) : Note → Prop
  | stays : Goes jobs n n
  /-- The run is unbound. -/
  | clears : Goes jobs n { n with run := none }
  /-- A run is bound where there was none. -/
  | begins {run index : Nat} (unbound : n.run = none) (reaches : Reaches jobs run index) :
      Goes jobs n ⟨some run,index,none⟩
  /-- The run is asked for a segment. -/
  | advances {run index : Nat} (suits : n.Suits jobs run index) : Goes jobs n { n with requested := index }
  /-- A segment counts as served, as far as it was asked for. -/
  | serves {run index : Nat} (bound : n.run = some run) (reaches : Reaches jobs run index) :
      Goes jobs n { n with served := some (n.served.elim id max (min index n.requested)) }

/-- One note goes on from another one of the same run: segments are not taken back. -/
structure Before (n n' : Note) : Prop where
  requested : n.requested ≤ n'.requested
  served : ∀ index, n.served = some index → ∃ index', n'.served = some index' ∧ index ≤ index'

variable {jobs jobs' : List Encoder.Job} {n n' n'' : Note} {run : Nat}

theorem Before.refl (n : Note) : n.Before n := ⟨Nat.le_refl _,fun index served => ⟨index,served,Nat.le_refl _⟩⟩

theorem Before.trans (first : n.Before n') (second : n'.Before n'') : n.Before n'' where
  requested := first.requested.trans second.requested
  served index served := by
    obtain ⟨index',served',onward⟩ := first.served index served
    obtain ⟨index'',served'',onward'⟩ := second.served index' served'
    exact ⟨index'',served'',onward.trans onward'⟩

theorem Agrees.grow (agrees : n.Agrees jobs) (grows : jobs <+: jobs') : n.Agrees jobs' := by
  intro run bound
  obtain ⟨job,found,rest⟩ := agrees run bound
  exact ⟨job,getElem?_of_grows grows found,rest⟩

theorem Goes.agrees (goes : n.Goes jobs n') (agrees : n.Agrees jobs) : n'.Agrees jobs := by
  intro run bound
  cases goes with
  | stays => exact agrees run bound
  | clears => cases bound
  | begins unbound reaches =>
    cases bound
    obtain ⟨job,found,covers⟩ := reaches
    exact ⟨job,found,covers,fun _ served => by cases served⟩
  | @advances run' index suits =>
    obtain ⟨job,found,_,served⟩ := agrees run bound
    obtain ⟨job',found',covers⟩ := suits.reaches
    cases suits.bound.symm.trans bound
    cases found.symm.trans found'
    exact ⟨job,found,covers,fun i is => ⟨(served i is).1,(served i is).2.trans suits.onward⟩⟩
  | @serves run' index bound' reaches =>
    obtain ⟨job,found,asked,served⟩ := agrees run bound
    obtain ⟨job',found',covers⟩ := reaches
    cases bound'.symm.trans bound
    cases found.symm.trans found'
    refine ⟨job,found,asked,fun i is => ?_⟩
    cases is
    cases before : n.served with
    | none => exact ⟨Nat.le_min.mpr ⟨covers.1,asked.1⟩,Nat.min_le_right _ _⟩
    | some last =>
      have known := served last before
      exact ⟨known.1.trans (Nat.le_max_left _ _),Nat.max_le.mpr ⟨known.2,Nat.min_le_right _ _⟩⟩

theorem Goes.before (goes : n.Goes jobs n') (bound : n.run = some run) (still : n'.run = some run) : n.Before n' := by
  cases goes with
  | stays => exact .refl n
  | clears => cases still
  | begins unbound reaches =>
    rw [unbound] at bound
    cases bound
  | advances suits => exact ⟨suits.onward,(Before.refl n).served⟩
  | @serves run' index bound' reaches =>
    refine ⟨Nat.le_refl _,fun last served => ⟨_,rfl,?_⟩⟩
    rw [served]
    exact Nat.le_max_left _ _

end Note

/-- What the table notes under the number of an entry; nothing for one that there is not. -/
def State.noteAt (s : State) (entry : Nat) : Note := ((s.entries[entry]?).map Entry.note).getD {}

namespace State

variable {s t : State} {entry : Nat}

theorem noteAt_of_found {e : Entry} (found : s.entries[entry]? = some e) : s.noteAt entry = e.note := by
  rw [noteAt,found]
  rfl

theorem noteAt_of_entries (same : t.entries = s.entries) (other : Nat) : t.noteAt other = s.noteAt other := by
  rw [noteAt,same]
  rfl

/-- What an entry notes, or a part of it, that a change of an entry leaves as it is. -/
theorem noteAt_onEntry_part {α : Type} {p : Note → α} {f : Entry → Entry} (keeps : ∀ e, p (f e).note = p e.note)
    (s : State) (entry other : Nat) : p ((s.onEntry entry f).noteAt other) = p (s.noteAt other) := by
  simp only [noteAt,onEntry,List.getElem?_modify]
  cases s.entries[other]? with
  | none => rfl
  | some e =>
    by_cases same : entry = other
    · simp [same,keeps]
    · simp [same]

theorem noteAt_onEntry {f : Entry → Entry} (keeps : ∀ e, (f e).note = e.note) (s : State) (entry other : Nat) :
    (s.onEntry entry f).noteAt other = s.noteAt other := noteAt_onEntry_part (p := id) keeps s entry other

@[simp] theorem noteAt_hold (s : State) (entry other : Nat) : (s.hold entry).noteAt other = s.noteAt other := by
  apply noteAt_onEntry
  exact fun _ => rfl

@[simp] theorem noteAt_letGo (s : State) (clock : Clock) (entry other : Nat) :
    (s.letGo clock entry).noteAt other = s.noteAt other := by
  apply noteAt_onEntry
  exact fun _ => rfl

@[simp] theorem noteAt_askLock (s : State) (entry other : Nat) : (s.askLock entry).noteAt other = s.noteAt other := by
  apply noteAt_onEntry
  exact fun _ => rfl

@[simp] theorem noteAt_unlock (s : State) (entry ticket other : Nat) :
    (s.unlock entry ticket).noteAt other = s.noteAt other := by
  apply noteAt_onEntry
  exact fun _ => rfl

@[simp] theorem noteAt_replace (s : State) (started : Started) (other : Nat) :
    (s.replace started).noteAt other = s.noteAt other := noteAt_of_entries (s.beside_replace started).entries other

/-- A new entry notes as little as one that there is not. -/
@[simp] theorem noteAt_enter (s : State) (clock : Clock) (key : Key) (other : Nat) :
    (Acquire.enter clock key s).1.noteAt other = s.noteAt other := by
  unfold Acquire.enter
  cases s.find? key with
  | some entry => rfl
  | none =>
    simp only [noteAt,List.getElem?_append]
    split
    · rfl
    · rename_i outside
      rw [List.getElem?_eq_none (Nat.le_of_not_lt outside),List.getElem?_singleton]
      split <;> rfl

theorem run_noteAt (s : State) (entry : Nat) : (s.noteAt entry).run = s.skeleton.bound? entry := by
  rw [noteAt,bound?_skeleton]
  cases s.entries[entry]? <;> rfl

end State

/-! ### Who writes -/

/-- Whether one may write to an entry: nobody is at its lock, or he is at the head of the queue there. -/
def Hold.HasTurn (locks : List Lock) (h : Hold) (entry : Nat) : Prop :=
  ticketsAt locks entry = [] ∨ ∃ ticket, h.ticket? = some (entry,ticket) ∧ (ticketsAt locks entry).head? = some ticket

/-- Where one has the turn, nobody else is inside. -/
theorem Queued.not_entered {locks : List Lock} {h h' : Hold} {holds : Multiset Hold} {entry ticket : Nat}
    (queued : Queued locks (h ::ₘ holds)) (turn : h.HasTurn locks entry) (member : h' ∈ holds) :
    h'.entered? ≠ some (entry,ticket) := by
  intro entered
  have head := queued.heads h' (Multiset.mem_cons_of_mem member) entry ticket entered
  rcases turn with empty | ⟨ticket',has,head'⟩
  · rw [empty] at head
    cases head
  · have same : ticket = ticket' := Option.some.inj (head.symm.trans head')
    subst same
    exact queued.apart has member (Hold.ticket?_of_entered? entered)

/-- What becomes of the notes when one with a place at some lock has taken a state to another one. -/
structure Writes (s : State) (h : Hold) (t : State) : Prop where
  goes : ∀ entry, (s.noteAt entry).Goes t.skeleton.jobs (t.noteAt entry)
  apart : ∀ entry, t.noteAt entry = s.noteAt entry ∨ h.HasTurn s.skeleton.locks entry

namespace Writes

variable {s t u : State} {h : Hold} {entry : Nat}

theorem none (same : ∀ other, t.noteAt other = s.noteAt other) : Writes s h t where
  goes other := by
    rw [same]
    exact .stays
  apart other := .inl (same other)

theorem follow (writes : Writes s h t) (same : ∀ other, u.noteAt other = t.noteAt other)
    (jobs : u.skeleton.jobs = t.skeleton.jobs) : Writes s h u where
  goes other := by
    rw [same,jobs]
    exact writes.goes other
  apart other := by
    rw [same]
    exact writes.apart other

/-- One entry is written to. -/
theorem one {f : Entry → Entry} {e : Entry} (found : s.entries[entry]? = some e)
    (entries : t.entries = s.entries.modify entry f) (turn : h.HasTurn s.skeleton.locks entry)
    (goes : e.note.Goes t.skeleton.jobs (f e).note) : Writes s h t := by
  have others : ∀ other, other ≠ entry → t.noteAt other = s.noteAt other := by
    intro other differs
    rw [State.noteAt,entries,List.getElem?_modify_ne _ _ (Ne.symm differs)]
    rfl
  have here : t.noteAt entry = (f e).note := by
    refine State.noteAt_of_found ?_
    rw [entries,List.getElem?_modify_eq,found]
    rfl
  constructor
  · intro other
    by_cases same : other = entry
    · subst same
      rw [here,State.noteAt_of_found found]
      exact goes
    · rw [others other same]
      exact .stays
  · intro other
    by_cases same : other = entry
    · exact .inr (same ▸ turn)
    · exact .inl (others other same)

end Writes

/-! ### What calls know -/

/-- What the start of a run knows: the run that it has made has the job that was ordered. -/
def Start.Knows (policy : Policy) (order : Order) (jobs : List Encoder.Job) : Start → Prop
  | launch _ run => jobs[run]? = some (order.job policy run)
  | begin | makeRoot _ | makeDirectory _ | discard .. => True

/-- What a request for a session knows: the bound run whose directory it lists can be asked for the segment. -/
def Acquire.Knows (policy : Policy) (demand : Demand) (s : State) : Acquire → Prop
  | listing entry _ run | listed entry _ run _ => (s.noteAt entry).Suits s.skeleton.jobs run (index demand)
  | starting entry _ phase => phase.Knows policy (order demand entry (index demand)) s.skeleton.jobs
  | lookup | approaching _ | locking .. | retrying => True

/-- What the binding of a lease knows: it starts a run at a segment that there is. -/
def Bind.Knows (policy : Policy) (lease : Lease) (jobs : List Encoder.Job) : Bind → Prop
  | starting _ first phase => ∀ demand, lease.pending = some demand →
      first < demand.rendering.segmentCount ∧ phase.Knows policy (Acquire.order demand lease.entry first) jobs
  | begin | approaching _ | locking .. | waiting .. => True

/-- A lease for a segment is for a run that has the segment in its range. -/
def Grant.Knows (jobs : List Encoder.Job) (g : Grant) : Prop :=
  ∀ index, g.demand.request = .segment index →
    g.lease.pending = none ∧ ∀ run, g.lease.run = some run → Reaches jobs run index

/-- What a call knows. -/
def Call.Knows (policy : Policy) (s : State) : Call → Prop
  | acquire demand phase => phase.Knows policy demand s
  | bind grant phase => grant.Knows s.skeleton.jobs ∧ phase.Knows policy grant.lease s.skeleton.jobs
  | mark lease index _ _ => ∀ run, lease.run = some run → Reaches s.skeleton.jobs run index
  | report .. | cleanUp _ => True

theorem Start.Knows.grow {policy : Policy} {order : Order} {jobs jobs' : List Encoder.Job} {phase : Start}
    (knows : phase.Knows policy order jobs) (grows : jobs <+: jobs') : phase.Knows policy order jobs' := by
  cases phase with
  | launch replaced run => exact getElem?_of_grows grows knows
  | _ => trivial

theorem Grant.Knows.grow {jobs jobs' : List Encoder.Job} {g : Grant} (knows : g.Knows jobs) (grows : jobs <+: jobs') :
    g.Knows jobs' := by
  intro index request
  obtain ⟨bound,reaches⟩ := knows index request
  exact ⟨bound,fun run given => (reaches run given).grow grows⟩

/-- What a call knows stays true while nobody writes to the entry that it is inside. -/
theorem Call.Knows.keep {policy : Policy} {s t : State} {call : Call} (knows : call.Knows policy s)
    (grows : s.skeleton.jobs <+: t.skeleton.jobs)
    (same : ∀ entry ticket, call.grip.hold.entered? = some (entry,ticket) → t.noteAt entry = s.noteAt entry) :
    call.Knows policy t := by
  cases call with
  | acquire demand phase =>
    have suits {entry ticket run : Nat} (inside : (Call.acquire demand phase).grip.hold = .inside entry ticket)
        (suits : (s.noteAt entry).Suits s.skeleton.jobs run (Acquire.index demand)) :
        (t.noteAt entry).Suits t.skeleton.jobs run (Acquire.index demand) := by
      rw [same entry ticket (by rw [inside]; rfl)]
      exact { suits with reaches := suits.reaches.grow grows }
    cases phase with
    | listing entry ticket run => exact suits rfl knows
    | listed entry ticket run holds => exact suits rfl knows
    | starting entry ticket phase => exact Start.Knows.grow knows grows
    | _ => trivial
  | bind grant phase =>
    refine ⟨knows.1.grow grows,?_⟩
    cases phase with
    | starting ticket first phase =>
      intro demand pending
      obtain ⟨inside,ordered⟩ := knows.2 demand pending
      exact ⟨inside,ordered.grow grows⟩
    | _ => trivial
  | mark lease index highest phase => exact fun run given => (knows run given).grow grows
  | _ => trivial

/-! ### Starting a run -/

variable {policy : Policy} {clock : Clock} {s : State} {makers : List Key}

theorem State.entry_of_given (s : State) {entry : Nat} (inside : entry < s.skeleton.locks.length) :
    ∃ e, s.entries[entry]? = some e := by
  have inside : entry < s.entries.length := by simpa [skeleton] using inside
  exact ⟨_,List.getElem?_eq_getElem inside⟩

theorem Start.hasTurn {locks : List Lock} {demand : Demand} {entry ticket : Nat} (phase : Start)
    (head : (ticketsAt locks entry).head? = some ticket) : (phase.grip demand entry ticket).hold.HasTurn locks entry :=
  .inr ⟨ticket,by cases phase <;> rfl,head⟩

/-- The start of a run clears the entry and then notes the first segment of the new run. -/
theorem Start.turn_writes (phase : Start) {demand : Demand} {entry ticket first : Nat}
    (fits : Fits s.skeleton makers (phase.grip demand entry ticket))
    (head : (ticketsAt s.skeleton.locks entry).head? = some ticket)
    (proper : first < (Acquire.order demand entry first).last policy)
    (knows : phase.Knows policy (Acquire.order demand entry first) s.skeleton.jobs) :
    (phase.turn policy (Acquire.order demand entry first) s).Leads
      (fun t next => Writes s (phase.grip demand entry ticket).hold t ∧
        next.Knows policy (Acquire.order demand entry first) t.skeleton.jobs)
      (fun t started => Writes s (phase.grip demand entry ticket).hold t ∧
        ∀ run, started.outcome = .ok run → Reaches t.skeleton.jobs run first) := by
  have turn : (phase.grip demand entry ticket).hold.HasTurn s.skeleton.locks entry := phase.hasTurn head
  have given : (phase.grip demand entry ticket).entry = some entry := by cases phase <;> rfl
  obtain ⟨e,found⟩ := s.entry_of_given (fits.given entry given)
  cases phase with
  | begin =>
    refine ⟨.one (f := fun e => { e with run := none }) found rfl turn ?_,trivial⟩
    exact .clears
  | makeRoot replaced =>
    unfold Start.turn
    dsimp only
    split
    · exact ⟨.none fun _ => rfl,fun _ failed => by cases failed⟩
    · exact ⟨.none fun _ => rfl,trivial⟩
  | makeDirectory replaced =>
    unfold Start.turn
    dsimp only
    split
    · exact ⟨.none fun _ => rfl,fun _ failed => by cases failed⟩
    · refine ⟨.none fun _ => rfl,?_⟩
      simp [Knows,State.skeleton]
  | launch replaced run =>
    unfold Start.turn
    dsimp only
    split
    · rename_i t launched
      have jobs : (t.bindRun entry run first).skeleton.jobs = s.skeleton.jobs := by
        rw [State.skeleton_bindRun,s.skeleton_launch launched]
        rfl
      have reaches : Reaches (t.bindRun entry run first).skeleton.jobs run first := by
        rw [jobs]
        exact ⟨_,knows,Nat.le_refl _,proper⟩
      have unbound : e.note.run = none := by
        rw [← State.noteAt_of_found found,s.run_noteAt]
        exact fits.emptied entry ticket rfl
      refine ⟨.one (f := fun e =>
        { e with run := some run, lastRequested := first, lastServed := none, calls := e.calls + 1 }) found ?_ turn
          (.begins unbound reaches),?_⟩
      · rw [← s.entries_launch launched]
        rfl
      · intro run' outcome
        cases outcome
        exact reaches
    · exact ⟨.none fun _ => rfl,trivial⟩
  | discard replaced run why => exact ⟨.none fun _ => rfl,fun _ failed => by cases failed⟩

/-- What a start that has come to its end leaves noted when its ticket is given back. -/
theorem Writes.settled {t : State} {h : Hold} (writes : Writes s h t) (entry ticket : Nat) (started : Started) :
    Writes s h ((t.unlock entry ticket).replace started) := by
  refine writes.follow (fun other => ?_) ?_
  · rw [State.noteAt_replace,State.noteAt_unlock]
  · rw [State.skeleton_replace,State.skeleton_unlock]
    cases started.replaced <;> rfl

theorem Writes.letGo {t : State} {h : Hold} (writes : Writes s h t) (clock : Clock) (entry : Nat) :
    Writes s h (t.letGo clock entry) :=
  writes.follow (fun other => t.noteAt_letGo clock entry other) (by rw [State.skeleton_letGo])

/-! ### Calls -/

/-- What is known of the result of a request for a session. -/
def Demand.Granted (demand : Demand) (jobs : List Encoder.Job) (r : Result Lease) : Prop :=
  ∀ lease, r = .ok lease → Grant.Knows jobs ⟨demand,lease⟩

theorem Demand.granted_of_reaches {demand : Demand} {jobs : List Encoder.Job} {entry run : Nat}
    (reaches : ∀ index, demand.request = .segment index → Reaches jobs run index) :
    demand.Granted jobs (.ok ⟨entry,some run,none⟩) := by
  rintro _ ⟨⟩ index request
  refine ⟨rfl,?_⟩
  rintro _ ⟨⟩
  exact reaches index request

theorem Acquire.reuse_writes {demand : Demand} {entry ticket run : Nat} {h : Hold}
    (inside : entry < s.skeleton.locks.length) (turn : h.HasTurn s.skeleton.locks entry)
    (suits : (s.noteAt entry).Suits s.skeleton.jobs run (Acquire.index demand)) :
    (Acquire.reuse demand s entry ticket run).Leads (fun _ _ => False)
      (fun t r => Writes s h t ∧ demand.Granted t.skeleton.jobs r) := by
  obtain ⟨e,found⟩ := s.entry_of_given inside
  rw [State.noteAt_of_found found] at suits
  refine ⟨.follow (.one (f := fun e => { e with lastRequested := Acquire.index demand }) found rfl turn ?_)
    (fun other => State.noteAt_unlock _ entry ticket other) rfl,?_⟩
  · exact .advances suits
  · refine Demand.granted_of_reaches fun index request => ?_
    rw [← Acquire.index_eq request]
    exact suits.reaches

/-- What a request finds that asks a bound run for a segment. -/
theorem Acquire.suits_noteAt {e : Entry} {entry run index : Nat} (found : s.entries[entry]? = some e)
    (bound : e.run = some run) (suited : suits policy s e run index = true) :
    (s.noteAt entry).Suits s.skeleton.jobs run index := by
  unfold suits at suited
  cases here : s.runs[run]? with
  | none => simp [here] at suited
  | some r =>
    simp only [here,Run.covers,Bool.and_eq_true,decide_eq_true_eq] at suited
    obtain ⟨⟨⟨_,covers⟩,onward⟩,_⟩ := suited
    rw [State.noteAt_of_found found]
    exact ⟨bound,onward,r.job,by simp [State.skeleton,here],covers⟩

theorem Acquire.decide_writes {demand : Demand} {entry ticket : Nat} {e : Entry}
    (locked : s.locked? entry ticket = some e) :
    (decide policy clock demand s entry ticket e).Leads
      (fun t next => Writes s (.waits entry ticket) t ∧ next.Knows policy demand t)
      (fun t r => Writes s (.waits entry ticket) t ∧ demand.Granted t.skeleton.jobs r) := by
  have found : s.entries[entry]? = some e := (Option.filter_eq_some_iff.mp locked).1
  have turn : (Hold.waits entry ticket).HasTurn s.skeleton.locks entry := .inr ⟨ticket,rfl,State.head_of_locked locked⟩
  have inside : entry < s.skeleton.locks.length := by
    simpa [State.skeleton] using (List.getElem?_eq_some_iff.mp found).1
  have freed : Writes s (.waits entry ticket) (s.unlock entry ticket) := .none fun other => s.noteAt_unlock entry ticket other
  have idle : Writes s (.waits entry ticket) s := .none fun _ => rfl
  unfold decide
  split
  · exact ⟨freed.letGo clock entry,trivial⟩
  · split
    · rename_i request _
      refine ⟨freed,Demand.granted_of_reaches fun index request' => ?_⟩
      rw [request] at request'
      cases request'
    · rename_i request _
      refine ⟨freed,?_⟩
      rintro _ ⟨⟩ index request'
      rw [request] at request'
      cases request'
    · rename_i index run _ request bound
      split
      · rename_i suited
        have suits := suits_noteAt found bound suited
        rw [← index_eq request] at suits
        split
        · exact ⟨idle,suits⟩
        · exact (reuse_writes inside turn suits).mono (fun _ _ no => no.elim) (fun _ _ done => done)
      · exact ⟨idle,trivial⟩
    · exact ⟨idle,trivial⟩

/-- A request for a session that there is writes to the entry at whose lock it has the turn. -/
theorem Acquire.turn_writes (phase : Acquire) {demand : Demand} (fits : Fits s.skeleton makers (phase.grip demand))
    (heads : ∀ entry ticket, (phase.grip demand).hold.entered? = some (entry,ticket) →
      (ticketsAt s.skeleton.locks entry).head? = some ticket)
    (proper : ∀ entry, index demand < (order demand entry (index demand)).last policy)
    (knows : phase.Knows policy demand s) :
    (phase.turn policy clock demand s).Leads
      (fun t next => Writes s (phase.grip demand).hold t ∧ next.Knows policy demand t)
      (fun t r => Writes s (phase.grip demand).hold t ∧ demand.Granted t.skeleton.jobs r) := by
  cases phase with
  | lookup => exact ⟨.none fun other => s.noteAt_enter clock demand.key other,trivial⟩
  | approaching entry =>
    refine ⟨.none fun other => ?_,trivial⟩
    rw [State.noteAt_askLock,State.noteAt_hold]
  | locking entry ticket =>
    unfold turn
    dsimp only
    split
    · trivial
    · rename_i e locked
      exact decide_writes locked
  | retrying => exact ⟨.none fun _ => rfl,trivial⟩
  | listing entry ticket run => exact ⟨.none fun _ => rfl,knows⟩
  | listed entry ticket run holds =>
    unfold turn
    dsimp only
    split
    · have turn : (Hold.inside entry ticket).HasTurn s.skeleton.locks entry := .inr ⟨ticket,rfl,heads entry ticket rfl⟩
      exact (reuse_writes (fits.given entry rfl) turn knows).mono (fun _ _ no => no.elim) (fun _ _ done => done)
    · exact ⟨.none fun _ => rfl,trivial⟩
  | starting entry ticket phase =>
    have head : (ticketsAt s.skeleton.locks entry).head? = some ticket :=
      heads entry ticket (by cases phase <;> rfl)
    refine (phase.turn_writes fits head (proper entry) knows).within (fun _ _ leads => leads) ?_
    rintro t ⟨replaced,outcome⟩ ⟨writes,reaches⟩
    cases outcome with
    | ok run =>
      refine ⟨writes.settled entry ticket ⟨replaced,.ok run⟩,Demand.granted_of_reaches fun i request => ?_⟩
      rw [← index_eq request,State.skeleton_replace,State.skeleton_unlock]
      cases replaced <;> exact reaches run rfl
    | error why => exact ⟨(writes.settled entry ticket ⟨replaced,.error why⟩).letGo clock entry,fun _ failed => by cases failed⟩

theorem Bind.firstSegment_lt {demand : Demand} (some : 0 < demand.rendering.segmentCount) (s : State) :
    firstSegment s demand < demand.rendering.segmentCount := by
  unfold firstSegment
  split
  · exact Rendering.segmentAt_lt some _
  · exact some

/-- The binding of a lease writes to the entry of the lease when it has the turn at its lock. -/
theorem Bind.turn_writes (phase : Bind) {grant : Grant} (fits : Fits s.skeleton makers (phase.grip grant.lease))
    (heads : ∀ entry ticket, (phase.grip grant.lease).hold.entered? = some (entry,ticket) →
      (ticketsAt s.skeleton.locks entry).head? = some ticket)
    (some : ∀ demand, grant.lease.pending = some demand → 0 < demand.rendering.segmentCount)
    (proper : ∀ demand entry first, grant.lease.pending = .some demand → first < demand.rendering.segmentCount →
      first < (Acquire.order demand entry first).last policy)
    (known : grant.Knows s.skeleton.jobs) (knows : phase.Knows policy grant.lease s.skeleton.jobs) :
    (phase.turn policy clock grant.lease s).Leads
      (fun t next => Writes s (phase.grip grant.lease).hold t ∧ grant.Knows t.skeleton.jobs ∧
        next.Knows policy grant.lease t.skeleton.jobs)
      (fun t r => Writes s (phase.grip grant.lease).hold t ∧ grant.demand.Granted t.skeleton.jobs r) := by
  have idle : Writes s (phase.grip grant.lease).hold s := .none fun _ => rfl
  unfold turn
  cases pending : grant.lease.pending with
  | none =>
    refine ⟨idle,?_⟩
    rintro _ ⟨⟩
    exact known
  | some demand =>
    -- a lease that is pending is not for a segment
    have known' (jobs : List Encoder.Job) : grant.Knows jobs := by
      intro index request
      rw [(known index request).1] at pending
      cases pending
    have granted (jobs : List Encoder.Job) (entry run : Nat) : grant.demand.Granted jobs (.ok ⟨entry,.some run,.none⟩) := by
      refine Demand.granted_of_reaches fun index request => ?_
      rw [(known index request).1] at pending
      cases pending
    simp only [grip,pending] at idle fits heads ⊢
    cases phase with
    | begin => exact ⟨idle,known' _,trivial⟩
    | approaching deadline => exact ⟨.none fun other => s.noteAt_askLock _ other,known' _,trivial⟩
    | locking deadline calls ticket =>
      have freed : Writes s (.waits grant.lease.entry ticket) (s.unlock grant.lease.entry ticket) :=
        .none fun other => s.noteAt_unlock _ ticket other
      dsimp only
      split
      · trivial
      · unfold decide
        dsimp only
        split
        · exact ⟨freed.letGo clock _,fun _ failed => by cases failed⟩
        · split
          · exact ⟨freed,granted _ _ _⟩
          · split
            · refine ⟨.none fun _ => rfl,known' _,?_⟩
              intro demand' pending'
              cases pending.symm.trans pending'
              exact ⟨firstSegment_lt (some demand pending) s,trivial⟩
            · exact ⟨freed,known' _,trivial⟩
    | waiting deadline calls =>
      dsimp only
      split
      · trivial
      · exact ⟨idle,known' _,trivial⟩
    | starting ticket first phase =>
      obtain ⟨inside,ordered⟩ := knows demand pending
      have head : (ticketsAt s.skeleton.locks grant.lease.entry).head? = .some ticket :=
        heads grant.lease.entry ticket (by cases phase <;> rfl)
      refine (phase.turn_writes fits head (proper demand _ first pending inside) ordered).within ?_ ?_
      · rintro t next ⟨writes,ordered'⟩
        refine ⟨writes,known' _,?_⟩
        intro demand' pending'
        cases pending.symm.trans pending'
        exact ⟨inside,ordered'⟩
      · rintro t ⟨replaced,outcome⟩ ⟨writes,_⟩
        cases outcome with
        | ok run => exact ⟨writes.settled _ ticket ⟨replaced,.ok run⟩,granted _ _ _⟩
        | error why =>
          exact ⟨(writes.settled _ ticket ⟨replaced,.error why⟩).letGo clock _,fun _ failed => by cases failed⟩

/-- That a segment was served is noted only if the run that served it is still bound. -/
theorem Served.turn_writes (phase : Served) {lease : Lease} {index : Nat} {highest : Option Nat}
    (knows : ∀ run, lease.run = some run → Reaches s.skeleton.jobs run index) :
    (phase.turn policy lease index highest s).Leads
      (fun t _ => Writes s (phase.grip lease).hold t ∧ ∀ run, lease.run = some run → Reaches t.skeleton.jobs run index)
      (fun t _ => Writes s (phase.grip lease).hold t) := by
  unfold turn
  cases bound : lease.run with
  | none => exact .none fun _ => rfl
  | some run =>
    have reaches (t : State) (jobs : t.skeleton.jobs = s.skeleton.jobs) :
        ∀ run', some run = some run' → Reaches t.skeleton.jobs run' index := by
      rw [jobs,← bound]
      exact knows
    simp only [grip,bound]
    cases phase with
    | begin => exact ⟨.none fun other => s.noteAt_askLock _ other,reaches _ rfl⟩
    | locking ticket =>
      dsimp only
      split
      · trivial
      · rename_i e locked
        split
        · rename_i still
          have found : s.entries[lease.entry]? = some e := (Option.filter_eq_some_iff.mp locked).1
          have notes : Writes s (.waits lease.entry ticket) ((s.unlock lease.entry ticket).onEntry lease.entry fun e =>
              { e with lastServed := some (latest e index) }) := by
            refine .one found (List.modify_modify_eq _ _ _ _) (.inr ⟨ticket,rfl,State.head_of_locked locked⟩) ?_
            have served : latest e index = e.note.served.elim id max (min index e.note.requested) := by
              unfold latest Entry.note
              cases e.lastServed <;> rfl
            have goes : e.note.Goes s.skeleton.jobs _ := .serves still (knows run bound)
            rw [← served] at goes
            exact goes
          exact ⟨notes,reaches _ rfl⟩
        · exact .none fun other => s.noteAt_unlock _ ticket other
    | noted lastServed =>
      dsimp only
      split
      · exact .none (State.noteAt_of_entries (s.beside_signalRun run false .throttled .running).entries)
      · exact .none fun _ => rfl

theorem Feedback.turn_writes (phase : Feedback) {id : RunId} {report : Encoder.Report} :
    (phase.turn policy id report s).Leads (fun t _ => Writes s phase.grip.hold t)
      (fun t _ => Writes s phase.grip.hold t) := by
  cases phase with
  | lookup =>
    unfold turn
    dsimp only
    split
    · exact .none fun _ => rfl
    · exact .none fun other => s.noteAt_askLock _ other
  | locking run entry ticket =>
    unfold turn
    dsimp only
    split
    · trivial
    · split <;> exact .none fun other => s.noteAt_unlock entry ticket other
  | recording run lastServed =>
    unfold turn
    dsimp only
    split <;> exact .none fun _ => rfl
  | listing run lastServed => exact .none fun _ => rfl
  | listed run lastServed available =>
    unfold turn
    dsimp only
    split
    · split
      · exact .none (State.noteAt_of_entries (s.beside_signalRun run true .running .throttled).entries)
      · exact .none fun _ => rfl
    · exact .none fun _ => rfl

/-- A round of cleaning up clears entries whose lock is free. -/
theorem Cleanup.turn_writes (phase : Cleanup) :
    (phase.turn policy clock s).Leads (fun t _ => Writes s phase.grip.hold t)
      (fun t _ => Writes s phase.grip.hold t) := by
  cases phase with
  | collect => exact .none fun _ => rfl
  | visiting now waiting removed =>
    cases waiting with
    | nil => exact .none fun _ => rfl
    | cons next rest =>
      obtain ⟨key,entry⟩ := next
      unfold turn
      dsimp only
      split
      · exact .none fun _ => rfl
      · rename_i e found
        split
        · rename_i idle
          have free : e.lock.queue = [] := List.isEmpty_iff.mp (Bool.and_eq_true_iff.mp idle).1
          have turn : Hold.HasTurn s.skeleton.locks .free entry := .inl (by simp [ticketsAt,State.skeleton,found,free])
          exact .one (f := fun e => { e with isRetired := true, run := none }) found rfl turn .clears
        · exact .none fun _ => rfl
  | unlisting now key entry run rest removed =>
    unfold turn
    dsimp only
    cases run with
    | none => exact .none fun _ => rfl
    | some run =>
      have entries := (State.beside_destroyed { s with
        table := s.table.filter (· ≠ (key,entry)), owners := s.owners.filter (·.1 != run) } run).entries
      dsimp only
      split
      · rename_i t phase destroyed
        rw [destroyed] at entries
        exact .none (State.noteAt_of_entries entries)
      · rename_i t destroyed
        rw [destroyed] at entries
        exact .none (State.noteAt_of_entries entries)
  | tearing now run phase rest removed =>
    exact (s.teardown_beside clock run phase).within (fun _ _ kept => .none (State.noteAt_of_entries kept.entries))
      (fun _ _ kept => .none (State.noteAt_of_entries kept.entries))

/-- Players that ask for segments that there are, the header counting as the first one, and report a segment as served
    through the lease that they asked for it with. -/
def Conduct.inRange : Conduct where
  asks demand := Acquire.index demand < demand.rendering.segmentCount ∧ demand.rendering.segmentCount ≤ max32
  marks demand index := demand.request = .segment index

/-- A turn of a call writes to the entry at whose lock it has the turn, and the call knows what it goes on with. -/
theorem Call.turn_writes (call : Call) (fits : Fits s.skeleton makers call.grip)
    (heads : ∀ entry ticket, call.grip.hold.entered? = some (entry,ticket) →
      (ticketsAt s.skeleton.locks entry).head? = some ticket)
    (asked : ∀ demand, call.demand? = some demand → Conduct.inRange.asks demand)
    (copies : 1 ≤ policy.maxCopySegments) (knows : call.Knows policy s) :
    (call.turn policy clock s).Leads (fun t next => Writes s call.grip.hold t ∧ next.Knows policy t)
      (fun t given => Writes s call.grip.hold t ∧ ∀ g, given = some g → g.Knows t.skeleton.jobs) := by
  have granted {t : State} {h : Hold} {demand : Demand} {r : Result Lease}
      (done : Writes s h t ∧ demand.Granted t.skeleton.jobs r) : (granted demand t r).Leads (fun _ _ => False)
        (fun t given => Writes s h t ∧ ∀ g, given = some g → g.Knows t.skeleton.jobs) := by
    cases r with
    | ok lease =>
      refine ⟨done.1,?_⟩
      rintro _ ⟨⟩
      exact done.2 lease rfl
    | error why => exact ⟨done.1,fun _ given => by cases given⟩
  have nothing {t : State} : ∀ g, (none : Option Grant) = some g → g.Knows t.skeleton.jobs :=
    fun _ given => by cases given
  cases call with
  | acquire demand phase =>
    obtain ⟨inside,counted⟩ := asked demand rfl
    refine Turn.Leads.within (phase.turn_writes fits heads (fun entry => ?_) knows) (fun _ _ leads => leads)
      (fun _ _ done => (granted done).mono (fun _ _ no => no.elim) (fun _ _ done => done))
    exact Order.first_lt_last (o := Acquire.order demand entry (Acquire.index demand)) copies inside counted
  | bind grant phase =>
    refine Turn.Leads.within (phase.turn_writes fits heads ?_ ?_ knows.1 knows.2) (fun _ _ leads => leads)
      (fun _ _ done => (granted done).mono (fun _ _ no => no.elim) (fun _ _ done => done))
    · intro demand pending
      exact Nat.zero_lt_of_lt (asked demand pending).1
    · intro demand entry first pending inside
      exact Order.first_lt_last (o := Acquire.order demand entry first) copies inside (asked demand pending).2
  | mark lease index highest phase =>
    exact Turn.Leads.within (phase.turn_writes knows) (fun _ _ leads => leads) (fun _ _ writes => ⟨writes,nothing⟩)
  | report id found phase =>
    exact Turn.Leads.within phase.turn_writes (fun _ _ writes => ⟨writes,trivial⟩) (fun _ _ writes => ⟨writes,nothing⟩)
  | cleanUp phase =>
    exact Turn.Leads.within phase.turn_writes (fun _ _ writes => ⟨writes,trivial⟩) (fun _ _ writes => ⟨writes,nothing⟩)

end Playout.Playback
