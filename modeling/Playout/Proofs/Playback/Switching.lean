import Mathlib.Order.Bounds.Basic
import Playout.Proofs.Playback.Decision
import Playout.Proofs.Playback.Inert
import Playout.Proofs.Playback.Positions
import Playout.Proofs.Representation.Lookup

/-!
Where a switch to another representation begins. When nobody says in time where to start, a run
for a header starts where the player is on the other representations of the stream: at the
greatest of the ticks that these were asked for last, which need not be the one that was asked
for latest. Sessions of other players and of other streams do not count.
-/
namespace Playout.Playback

/-- Whether a key is that of the same player and stream, in another representation. -/
def Key.IsElsewhere (key other : Key) : Prop :=
  other.stream = key.stream ∧ other.player = key.player ∧ other.representation ≠ key.representation

instance (key other : Key) : Decidable (key.IsElsewhere other) := inferInstanceAs (Decidable (_ ∧ _ ∧ _))

/-- The ticks that a player was at last on the other representations of a stream. -/
def positions (rendering : Key → Rendering) (log : List (Key × Nat)) (key : Key) : Set Int :=
  {tick | ∃ other index, key.IsElsewhere other ∧ lastAsked? log other = some index ∧
    (rendering other).segmentStart? index = some tick}

/-- What a player asked for latest on another representation than that of a key. -/
def latestElsewhere? (log : List (Key × Nat)) (key : Key) : Option (Key × Nat) :=
  log.find? fun p => key.IsElsewhere p.1

theorem asked_of_latestElsewhere? {log : List (Key × Nat)} {key other : Key} {index : Nat}
    (latest : latestElsewhere? log key = some (other,index)) :
    key.IsElsewhere other ∧ lastAsked? log other = some index := by
  have elsewhere : key.IsElsewhere other := by simpa using List.find?_some latest
  refine ⟨elsewhere,?_⟩
  induction log with
  | nil => cases latest
  | cons p rest ih =>
    rw [latestElsewhere?,List.find?_cons] at latest
    rw [lastAsked?,List.find?_cons]
    by_cases here : key.IsElsewhere p.1
    · simp only [here,decide_true,Option.some.injEq] at latest
      simp [latest]
    · have differs : p.1 ≠ other := fun same => here (same ▸ elsewhere)
      simp only [here,decide_false] at latest
      simp only [differs,decide_false]
      exact ih latest

/-- Whether a session has a run and nobody is at its lock. -/
def State.IsPlaying (s : State) (key : Key) : Prop :=
  ∃ entry e, s.find? key = some entry ∧ s.entries[entry]? = some e ∧ e.lock.isFree = true ∧ e.run ≠ none

/-! ### The greatest position -/

namespace Bind

theorem greatest?_eq (ticks : List Int) : greatest? ticks = ticks.max? := by
  cases ticks with
  | nil => rfl
  | cons first rest => exact List.max?_cons'.symm

/-- Where a row of the table puts the player of a key on another representation. -/
def positionOf? (s : State) (key : Key) (row : Key × Nat) : Option Int := do
  guard (key.IsElsewhere row.1)
  let e ← s.entries[row.2]?
  guard e.lock.isFree
  let r ← s.runs[← s.liveRun? e]?
  r.job.rendering.segmentStart? e.lastRequested

theorem position?_eq (s : State) (key : Key) : position? s key = greatest? (s.table.filterMap (positionOf? s key)) := rfl

theorem positionOf?_eq_some {s : State} {key : Key} {row : Key × Nat} {tick : Int} :
    positionOf? s key row = some tick ↔ key.IsElsewhere row.1 ∧ ∃ e, s.entries[row.2]? = some e ∧ e.lock.isFree = true ∧
      ∃ run r, s.liveRun? e = some run ∧ s.runs[run]? = some r ∧
        r.job.rendering.segmentStart? e.lastRequested = some tick := by
  unfold positionOf?
  by_cases elsewhere : key.IsElsewhere row.1
  · simp [elsewhere,Option.bind_eq_some_iff]
  · simp [elsewhere]

end Bind

/-! ### The run that is started -/

variable {policy : Policy} {clock : Clock} {s : State} {order : Order}

/-- The start of a run comes to a run with the job that was ordered. -/
theorem Start.turn_knows (phase : Start) (knows : phase.Knows policy order s.skeleton.jobs) :
    (phase.turn policy order s).Leads (fun t next => next.Knows policy order t.skeleton.jobs)
      (fun t started => ∀ run, started.outcome = .ok run → t.skeleton.jobs[run]? = some (order.job policy run)) := by
  cases phase with
  | begin => trivial
  | makeRoot replaced =>
    unfold turn
    dsimp only
    split
    · exact fun _ failed => by cases failed
    · trivial
  | makeDirectory replaced =>
    unfold turn
    dsimp only
    split
    · exact fun _ failed => by cases failed
    · simp [Turn.Leads,Knows,State.skeleton]
  | launch replaced run =>
    unfold turn
    dsimp only
    split
    · rename_i t launched
      rintro _ ⟨⟩
      rw [State.skeleton_bindRun,s.skeleton_launch launched]
      exact knows
    · trivial
  | discard replaced run why => exact fun _ failed => by cases failed

/-- What the binding of a lease knows of the run that it has made: it has the job that was ordered. -/
def Bind.Orders (policy : Policy) (lease : Lease) (jobs : List Encoder.Job) : Bind → Prop
  | starting _ first phase => ∀ demand, lease.pending = some demand →
      phase.Knows policy (Acquire.order demand lease.entry first) jobs
  | begin | approaching _ | locking .. | waiting .. => True

theorem Bind.Orders.grow {lease : Lease} {jobs jobs' : List Encoder.Job} {phase : Bind}
    (orders : phase.Orders policy lease jobs) (grows : jobs <+: jobs') : phase.Orders policy lease jobs' := by
  cases phase with
  | starting ticket first phase => exact fun demand pending => (orders demand pending).grow grows
  | _ => trivial

/-- A lease that starts a run keeps to the first segment that it has chosen, and comes to a run that begins there. -/
theorem Bind.starting_turn {lease : Lease} {demand : Demand} (pending : lease.pending = some demand) {ticket first : Nat}
    {phase : Start} (orders : (starting ticket first phase).Orders policy lease s.skeleton.jobs) :
    ((starting ticket first phase).turn policy clock lease s).Leads
      (fun t next => next.Orders policy lease t.skeleton.jobs ∧ ∃ phase', next = .starting ticket first phase')
      (fun t r => ∀ given, r = .ok given → ∃ run, given.run = some run ∧
        t.skeleton.jobs[run]? = some ((Acquire.order demand lease.entry first).job policy run)) := by
  unfold turn
  rw [pending]
  refine (phase.turn_knows (orders demand pending)).within ?_ ?_
  · rintro t next knows
    refine ⟨fun demand' pending' => ?_,next,rfl⟩
    cases pending.symm.trans pending'
    exact knows
  · rintro t ⟨replaced,outcome⟩ made
    cases outcome with
    | ok run =>
      rintro _ ⟨⟩
      refine ⟨run,rfl,?_⟩
      rw [State.skeleton_replace,State.skeleton_unlock]
      cases replaced <;> exact made run rfl
    | error why => exact fun _ failed => by cases failed

theorem Bind.turn_orders (phase : Bind) {lease : Lease} (orders : phase.Orders policy lease s.skeleton.jobs) :
    (phase.turn policy clock lease s).Leads (fun t next => next.Orders policy lease t.skeleton.jobs)
      (fun _ _ => True) := by
  cases pending : lease.pending with
  | none =>
    unfold turn
    rw [pending]
    trivial
  | some demand =>
    cases phase with
    | starting ticket first phase =>
      exact (starting_turn pending orders).mono (fun _ _ on => on.1) (fun _ _ _ => trivial)
    | locking deadline calls ticket =>
      unfold turn
      rw [pending]
      dsimp only
      split
      · trivial
      · unfold decide
        dsimp only
        split
        · trivial
        · split
          · trivial
          · split
            · exact fun _ _ => trivial
            · trivial
    | waiting deadline calls =>
      unfold turn
      rw [pending]
      dsimp only
      split <;> trivial
    | _ =>
      unfold turn
      rw [pending]
      trivial

/-- What a call knows of the run that it has made for a lease. -/
def Call.Orders (policy : Policy) (jobs : List Encoder.Job) : Call → Prop
  | bind grant phase => phase.Orders policy grant.lease jobs
  | acquire .. | mark .. | report .. | cleanUp _ => True

theorem Call.Orders.grow {call : Call} {jobs jobs' : List Encoder.Job} (orders : call.Orders policy jobs)
    (grows : jobs <+: jobs') : call.Orders policy jobs' := by
  cases call with
  | bind grant phase => exact Bind.Orders.grow orders grows
  | _ => trivial

theorem Call.turn_orders (call : Call) (orders : call.Orders policy s.skeleton.jobs) :
    (call.turn policy clock s).Leads (fun t next => next.Orders policy t.skeleton.jobs) (fun _ _ => True) := by
  cases call with
  | acquire demand phase =>
    exact (Turn.Leads.any _).within (fun _ _ _ => trivial) (fun _ r _ => by cases r <;> trivial)
  | bind grant phase =>
    exact (phase.turn_orders orders).within (fun _ _ on => on) (fun _ r _ => by cases r <;> trivial)
  | mark lease index highest phase => exact (Turn.Leads.any _).within (fun _ _ _ => trivial) (fun _ _ _ => trivial)
  | report id found phase => exact (Turn.Leads.any _).within (fun _ _ _ => trivial) (fun _ _ _ => trivial)
  | cleanUp phase => exact (Turn.Leads.any _).within (fun _ _ _ => trivial) (fun _ _ _ => trivial)

/-- A lease that comes to the lock of its entry after its deadline, and finds no run there, starts one. -/
theorem Call.turn_of_due {grant : Grant} {demand : Demand} {deadline ticket : Nat} {e : Entry}
    (pending : grant.lease.pending = some demand) (locked : s.locked? grant.lease.entry ticket = some e)
    (listed : e.isRetired = false) (unbound : e.run = none) (due : deadline ≤ clock.millis) (calls : Nat) :
    (Call.bind grant (.locking deadline calls ticket)).turn policy clock s =
      .goesOn s (.bind grant (.starting ticket (Bind.firstSegment s demand) .begin)) := by
  have free : s.liveRun? e = none := by rw [State.liveRun?,unbound]; rfl
  simp [turn,Bind.turn,pending,locked,Bind.decide,listed,free,due,Turn.within]

namespace Traffic

variable {conduct : Conduct} {w w' : Traffic} {log : List (Key × Nat)}

/-- In every history, the run that a lease has made has the job that was ordered for it. -/
theorem orders_of_reachable (reached : w.Reachable policy conduct) :
    ∀ call ∈ w.calls, call.Orders policy w.state.skeleton.jobs := by
  induction reached with
  | refl => exact fun _ going => by cases going
  | @tail u v before step ih =>
    have old (call : Call) (going : call ∈ u.calls) : call.Orders policy v.state.skeleton.jobs :=
      (ih call going).grow (Course.jobs_grow_step before step)
    cases step with
    | ask | bind | mark | report | cleanUp => exact Multiset.forall_mem_cons.mpr ⟨trivial,old⟩
    | goesOn call calls went turned =>
      have orders := @Call.turn_orders policy u.clock u.state call (ih call (went ▸ Multiset.mem_cons_self call calls))
      rw [turned] at orders
      exact Multiset.forall_mem_cons.mpr ⟨orders,fun other going => old other (went ▸ Multiset.mem_cons_of_mem going)⟩
    | ends call calls went turned => exact fun other going => old other (went ▸ Multiset.mem_cons_of_mem going)
    | _ => exact old

variable {rendering : Key → Rendering}

/-- A run that the table binds is cut as its session is. -/
theorem rendering_of_bound (reached : w.Reachable policy (.withRendering rendering)) {key : Key} {entry run : Nat} {r : Run}
    (listed : (key,entry) ∈ w.state.table) (bound : w.state.skeleton.bound? entry = some run)
    (found : w.state.runs[run]? = some r) : r.job.rendering = rendering key := by
  have sound := sound_of_reachable reached
  have here : w.state.boundTo? key = some run := by
    rw [State.boundTo?_eq,State.find?_of_mem sound.listed.keys listed]
    exact bound
  obtain ⟨demand,_,_,asked,rfl,ordered⟩ := job_of_bound sound (ordered_of_reachable reached) here found
  rw [ordered]
  exact asked

/-- While the other sessions of a player have runs and are left alone, the table says where he is there. -/
theorem mem_positions_iff (tracked : Tracked policy (.withRendering rendering) log w) {key : Key}
    (playing : ∀ p ∈ log, key.IsElsewhere p.1 → w.state.IsPlaying p.1) (tick : Int) :
    tick ∈ positions rendering log key ↔ tick ∈ w.state.table.filterMap (Bind.positionOf? w.state key) := by
  have reached := reachable_of_tracked tracked
  have sound := sound_of_reachable reached
  rw [List.mem_filterMap]
  constructor
  · rintro ⟨other,index,elsewhere,asked,start⟩
    obtain ⟨entry,e,found,here,free,binds⟩ := playing _ (mem_of_lastAsked? asked) elsewhere
    obtain ⟨run,binds⟩ := Option.ne_none_iff_exists'.mp binds
    have listed := State.mem_of_find? found
    have bound : w.state.skeleton.bound? entry = some run := by rw [State.bound?_skeleton,here]; exact binds
    have alive := sound.alive_of_bound bound
    cases at_run : w.state.runs[run]? with
    | none => simp [State.isDestroyed,at_run] at alive
    | some r =>
      have noted := isTracked_of_tracked tracked other entry listed (by rw [State.run_noteAt,bound]; simp)
      rw [asked,State.noteAt_of_found here,Option.some.injEq] at noted
      refine ⟨(other,entry),listed,Bind.positionOf?_eq_some.mpr ⟨elsewhere,e,here,free,run,r,?_,at_run,?_⟩⟩
      · rw [State.liveRun?,binds,Option.filter_some,alive]
        rfl
      · rw [rendering_of_bound reached listed bound at_run,← start,noted]
        rfl
  · rintro ⟨⟨other,entry⟩,listed,placed⟩
    obtain ⟨elsewhere,e,here,free,run,r,live,at_run,start⟩ := Bind.positionOf?_eq_some.mp placed
    have bound : w.state.skeleton.bound? entry = some run := by
      rw [State.bound?_skeleton,here]
      exact State.liveRun?_eq live
    have noted := isTracked_of_tracked tracked other entry listed (by rw [State.run_noteAt,bound]; simp)
    rw [State.noteAt_of_found here] at noted
    rw [rendering_of_bound reached listed bound at_run] at start
    exact ⟨other,_,elsewhere,noted,start⟩

/-- Where a run for a header starts, as far as the positions of the player go. -/
theorem firstSegment_spec (tracked : Tracked policy (.withRendering rendering) log w) {demand : Demand}
    (playing : ∀ p ∈ log, demand.key.IsElsewhere p.1 → w.state.IsPlaying p.1) :
    (positions rendering log demand.key = ∅ ∧ Bind.firstSegment w.state demand = 0) ∨
      ∃ tick, IsGreatest (positions rendering log demand.key) tick ∧
        Bind.firstSegment w.state demand = demand.rendering.segmentAt tick := by
  have placed := mem_positions_iff tracked playing
  unfold Bind.firstSegment
  rw [Bind.position?_eq,Bind.greatest?_eq]
  split
  · rename_i tick greatest
    obtain ⟨member,above⟩ := List.max?_eq_some_iff.mp greatest
    exact .inr ⟨tick,⟨(placed tick).mpr member,fun tick' among => above tick' ((placed tick').mp among)⟩,rfl⟩
  · rename_i missing
    refine .inl ⟨Set.eq_empty_iff_forall_notMem.mpr fun tick among => ?_,rfl⟩
    have member := (placed tick).mp among
    rw [List.max?_eq_none_iff.mp missing] at member
    cases member

/-- In every history in which each session is of one rendering: when a lease for a header has come to the lock of its
    entry after its deadline, and no run is bound there, it starts one. If the other sessions in which the player asked
    for something have runs and nobody is at their locks, that run begins at the segment of the greatest tick which these
    sessions were asked for last, and at the first segment if there is none. So it begins where the player asked for
    something latest exactly if he was not left further on in another session. The sessions of other players and of other
    streams do not count. -/
theorem header_starts_at_furthest_position (tracked : Tracked policy (.withRendering rendering) log w) {grant : Grant}
    {demand : Demand} {deadline ticket : Nat} {e : Entry} (pending : grant.lease.pending = some demand)
    (locked : w.state.locked? grant.lease.entry ticket = some e) (listed : e.isRetired = false) (unbound : e.run = none)
    (due : deadline ≤ w.clock.millis) (calls : Nat)
    (playing : ∀ p ∈ log, demand.key.IsElsewhere p.1 → w.state.IsPlaying p.1) :
    ∃ first, (Call.bind grant (.locking deadline calls ticket)).turn policy w.clock w.state =
        .goesOn w.state (.bind grant (.starting ticket first .begin)) ∧
      (positions rendering log demand.key = ∅ → first = 0) ∧
      (∀ tick, IsGreatest (positions rendering log demand.key) tick → first = demand.rendering.segmentAt tick) ∧
      (∀ other index tick, latestElsewhere? log demand.key = some (other,index) →
        (rendering other).segmentStart? index = some tick →
        (first = demand.rendering.segmentAt tick ↔ ∀ tick' ∈ positions rendering log demand.key,
          demand.rendering.segmentAt tick' ≤ demand.rendering.segmentAt tick)) ∧
      ∀ w' : Traffic, w'.Reachable policy (.withRendering rendering) → ∀ phase,
        .bind grant (.starting ticket first phase) ∈ w'.calls →
        ((Bind.starting ticket first phase).turn policy w'.clock grant.lease w'.state).Leads
          (fun _ next => ∃ phase', next = .starting ticket first phase')
          (fun t result => ∀ lease, result = .ok lease → ∃ run r, lease.run = some run ∧ t.runs[run]? = some r ∧
            r.job.first = first ∧ r.job.rendering = demand.rendering) := by
  have starts := firstSegment_spec tracked playing
  refine ⟨Bind.firstSegment w.state demand,?_,?_,?_,?_,?_⟩
  · exact Call.turn_of_due pending locked listed unbound due calls
  · intro empty
    rcases starts with ⟨_,first⟩ | ⟨tick,greatest,_⟩
    · exact first
    · exact absurd greatest.1 (by rw [empty]; exact id)
  · intro tick greatest
    rcases starts with ⟨empty,_⟩ | ⟨tick',greatest',first⟩
    · exact absurd greatest.1 (by rw [empty]; exact id)
    · rw [greatest.unique greatest']
      exact first
  · intro other index tick latest start
    obtain ⟨elsewhere,asked⟩ := asked_of_latestElsewhere? latest
    have among : tick ∈ positions rendering log demand.key := ⟨other,index,elsewhere,asked,start⟩
    rcases starts with ⟨empty,_⟩ | ⟨furthest,greatest,first⟩
    · exact absurd among (by rw [empty]; exact id)
    · have before {tick' : Int} (among' : tick' ∈ positions rendering log demand.key) :
          demand.rendering.segmentAt tick' ≤ demand.rendering.segmentAt furthest :=
        Rendering.segmentAt_mono _ (greatest.2 among')
      rw [first]
      constructor
      · intro same tick' among'
        exact same ▸ before among'
      · intro last
        exact Nat.le_antisymm (last furthest greatest.1) (before among)
  · intro w' reached phase going
    refine (Bind.starting_turn pending (orders_of_reachable reached _ going)).mono (fun _ _ on => on.2) ?_
    intro t r made lease given
    obtain ⟨run,has,job⟩ := made lease given
    obtain ⟨r,here,ordered⟩ := State.run_of_job job
    exact ⟨run,r,has,here,by rw [ordered]; rfl,by rw [ordered]; rfl⟩

/-- A film of three segments. -/
def longFilm : Rendering := { firstRequest.rendering with starts := [0,10,20] }

/-- A request for something of the film in a representation. -/
def filmIn (representation : RepresentationId) (request : SegmentRequest) : Demand :=
  ⟨⟨default,representation,default⟩,request,longFilm,"film.mkv"⟩

/-- A request for the last segment of the film. -/
def lastSegment : Demand := filmIn .direct (.segment 2)

/-- A request for the first segment in another representation. -/
def soughtSegment : Demand := filmIn (.preset "720p") (.segment 0)

/-- A request for the header in a third representation. -/
def switchedHeader : Demand := filmIn (.preset "480p") .header

/-- The lease for that header. -/
def switchedGrant : Grant := ⟨switchedHeader,⟨2,none,some switchedHeader⟩⟩

/-- Players that see the film of three segments in every session. -/
def watchesFilm : Conduct := .withRendering fun _ => longFilm

/-- A player who has watched the last segment and has gone back to the first one. -/
def seekBack : List (Key × Nat) := [(soughtSegment.key,0),(lastSegment.key,2)]

theorem isGreatest_of_seekBack : IsGreatest (positions (fun _ => longFilm) seekBack switchedHeader.key) 20 := by
  refine ⟨⟨lastSegment.key,2,by decide,by decide,rfl⟩,?_⟩
  rintro tick ⟨other,index,_,asked,start⟩
  have start : [0,10,20][index]? = some tick := start
  have member := mem_of_lastAsked? asked
  simp only [seekBack,List.mem_cons,Prod.mk.injEq,List.not_mem_nil,or_false] at member
  rcases member with ⟨_,rfl⟩ | ⟨_,rfl⟩
  · cases start
    decide
  · cases start
    decide

/-- The player has gone back and has switched to the third representation, and the time to say where he is is over. -/
theorem seekBack_before_switch :
    ∃ w : Traffic, Tracked (.ofConfig {}) watchesFilm seekBack w ∧
      .bind switchedGrant (.locking 1000 0 1) ∈ w.calls ∧
      (∃ e, w.state.locked? 2 1 = some e ∧ e.isRetired = false ∧ e.run = none) ∧ w.clock.millis = 1000 ∧
      w.state.IsPlaying lastSegment.key ∧ w.state.IsPlaying soughtSegment.key := by
  have asked : Tracked (.ofConfig {}) watchesFilm _ _ :=
    .passes .start (.ask lastSegment rfl) (by rfl)
  have found := asked.passes (.goesOn _ 0 rfl rfl) (by rfl)
  have entered := found.passes (.goesOn _ 0 rfl rfl) (by rfl)
  have inside := entered.passes (.goesOn _ 0 rfl rfl) (by rfl)
  have unbound := inside.passes (.goesOn _ 0 rfl rfl) (by rfl)
  have rooted := unbound.passes (.goesOn _ 0 rfl rfl) (by rfl)
  have made := rooted.passes (.goesOn _ 0 rfl rfl) (by rfl)
  have served := made.gives _ 0 rfl rfl
  have asked := served.passes (.ask soughtSegment rfl) (by rfl)
  have found := asked.passes (.goesOn _ 0 rfl rfl) (by rfl)
  have entered := found.passes (.goesOn _ 0 rfl rfl) (by rfl)
  have inside := entered.passes (.goesOn _ 0 rfl rfl) (by rfl)
  have unbound := inside.passes (.goesOn _ 0 rfl rfl) (by rfl)
  have rooted := unbound.passes (.goesOn _ 0 rfl rfl) (by rfl)
  have made := rooted.passes (.goesOn _ 0 rfl rfl) (by rfl)
  have served := made.gives _ 0 rfl rfl
  have asked := served.passes (.ask switchedHeader rfl) (by rfl)
  have found := asked.passes (.goesOn _ 0 rfl rfl) (by rfl)
  have entered := found.passes (.goesOn _ 0 rfl rfl) (by rfl)
  have pending := entered.gives _ 0 rfl rfl
  have binds := pending.passes (.bind _ _ (Multiset.singleton_add _ _)) (Multiset.le_add_left _ _)
  have timed := binds.passes (.goesOn _ 0 rfl rfl) (by rfl)
  have waited := timed.passes (.wait ⟨1000,0⟩ (by decide) (by decide)) (by rfl)
  have due := waited.passes (.goesOn _ 0 rfl rfl) (by rfl)
  exact ⟨_,due,Multiset.mem_singleton_self _,⟨_,rfl,rfl,rfl⟩,rfl,⟨0,_,rfl,rfl,rfl,by decide⟩,
    ⟨1,_,rfl,rfl,rfl,by decide⟩⟩

theorem playing_of_seekBack {w : Traffic} (late : w.state.IsPlaying lastSegment.key)
    (sought : w.state.IsPlaying soughtSegment.key) (key : Key) :
    ∀ p ∈ seekBack, key.IsElsewhere p.1 → w.state.IsPlaying p.1 := by
  intro p member _
  rcases List.mem_cons.mp member with rfl | earlier
  · exact sought
  · obtain rfl := List.mem_singleton.mp earlier
    exact late

/-- After the player has gone back, the run for the header starts at the last segment. -/
theorem switch_after_seekBack :
    ∃ w : Traffic, Tracked (.ofConfig {}) watchesFilm seekBack w ∧
      (Call.bind switchedGrant (.locking 1000 0 1)).turn (.ofConfig {}) w.clock w.state =
        .goesOn w.state (.bind switchedGrant (.starting 1 2 .begin)) := by
  obtain ⟨w,tracked,_,⟨e,locked,listed,unbound⟩,now,late,sought⟩ := seekBack_before_switch
  have pending : switchedGrant.lease.pending = some switchedHeader := rfl
  obtain ⟨first,turned,_,furthest,_⟩ := header_starts_at_furthest_position tracked pending locked listed unbound now.ge 0
    (playing_of_seekBack late sought _)
  obtain rfl : first = 2 := furthest 20 isGreatest_of_seekBack
  exact ⟨w,tracked,turned⟩

/-- A player watches the last segment of the film in one representation, goes back to the first segment in another one,
    and switches to a third one. Both runs are live and nobody is at their locks, but the run for the header of the third
    representation starts at the last segment, and not at the first one, which was asked for latest. -/
theorem seek_back_is_overlooked :
    ∃ w : Traffic, Tracked (.ofConfig {}) watchesFilm seekBack w ∧
      .bind switchedGrant (.locking 1000 0 1) ∈ w.calls ∧
      (∀ p ∈ seekBack, switchedHeader.key.IsElsewhere p.1 → w.state.IsPlaying p.1) ∧
      (∃ tick, latestElsewhere? seekBack switchedHeader.key = some (soughtSegment.key,0) ∧
        longFilm.segmentStart? 0 = some tick ∧ longFilm.segmentAt tick = 0) ∧
      (Call.bind switchedGrant (.locking 1000 0 1)).turn (.ofConfig {}) w.clock w.state =
        .goesOn w.state (.bind switchedGrant (.starting 1 2 .begin)) := by
  obtain ⟨w,tracked,going,⟨e,locked,listed,unbound⟩,now,late,sought⟩ := seekBack_before_switch
  have pending : switchedGrant.lease.pending = some switchedHeader := rfl
  have playing := playing_of_seekBack late sought switchedHeader.key
  refine ⟨w,tracked,going,playing,⟨0,rfl,rfl,rfl⟩,
    (Call.turn_of_due pending locked listed unbound now.ge 0).trans ?_⟩
  rcases firstSegment_spec tracked playing with ⟨empty,_⟩ | ⟨tick,greatest,first⟩
  · exact absurd isGreatest_of_seekBack.1 (by rw [empty]; exact id)
  · rw [first,greatest.unique isGreatest_of_seekBack]
    rfl

end Traffic
end Playout.Playback
