import Playout.Proofs.Playback.Bookkeeping
import Playout.Proofs.Playback.Decision
import Playout.Proofs.Playback.Disconnection

/-!
Requests for segments that start no run, because a directory cannot be made or the encoder is not started. They have by
then taken the bound run from the session, and may have made a run of their own. Whatever fails, they leave the session
in the table without a run, destroy both runs and touch nothing else (`State.Spared`).
-/
namespace Playout.Playback

variable {policy : Policy} {clock : Clock} {demand : Demand} {key : Key} {s t u : State} {entry ticket index : Nat}
  {why : Error}

/-! ### Owners -/

/-- Whoever owns a run after a move owned it before, unless the run was just made. -/
theorem Move.owners {g h : Grip} {news : List Key} (move : Move policy clock s g t h news) {p : Nat × Nat}
    (member : p ∈ t.skeleton.owners) : p ∈ s.skeleton.owners ∨ ∃ d, g.fresh = some p.1 ∧ g.demand = some d := by
  have disowned {k : Skeleton} {run : Option Nat} (member : p ∈ (k.disown run).owners) : p ∈ k.owners := by
    cases run with
    | none => exact member
    | some run => exact List.mem_of_mem_filter member
  have discarded {k : Skeleton} {run : Option Nat} (member : p ∈ (k.discard run).owners) : p ∈ k.owners := by
    cases run <;> exact member
  cases move with
  | rests same => exact .inl (same ▸ member)
  | enters demand =>
    rcases Acquire.skeleton_enter s clock demand.key with same | new
    · exact .inl (same ▸ member)
    · rw [new] at member
      exact .inl member
  | asks idle known same =>
    rw [State.skeleton_askLock,same] at member
    exact .inl member
  | leaves holds freed =>
    rw [freed] at member
    exact .inl member
  | unbinds inside empty =>
    rw [State.skeleton_unbindRun] at member
    exact .inl (disowned (k := s.skeleton.bind _ none) member)
  | @binds u _ entry ticket run demand first emptied wants given made launched =>
    rw [State.skeleton_replace,State.skeleton_unlock,State.skeleton_bindRun] at member
    have member := discarded member
    rcases List.mem_append.mp member with old | new
    · have same : s.skeleton.owners = u.owners := congrArg Skeleton.owners (s.skeleton_launch launched).symm
      rw [same]
      exact .inl (List.mem_of_mem_filter old)
    · obtain rfl := List.mem_singleton.mp new
      exact .inr ⟨demand,made,wants⟩
  | refuses made =>
    rw [State.skeleton_refuse] at member
    exact .inl member
  | givesUp why emptied unmade same =>
    rw [State.skeleton_letGo,State.skeleton_replace,State.skeleton_unlock,same] at member
    exact .inl (discarded (k := s.skeleton.onLock _ _) member)
  | @unlists _ key entry retired =>
    cases taken : g.taken with
    | none =>
      rw [taken] at member
      exact .inl member
    | some run =>
      rw [taken,State.unlist,State.skeleton_destroyed] at member
      exact .inl (List.mem_of_mem_filter (discarded member))
  | _ => exact .inl member

/-- Owned runs are runs that were made. -/
def Skeleton.OwnsMade (k : Skeleton) : Prop := ∀ p ∈ k.owners, p.1 < k.jobs.length

/-- A call that is dropped takes no run from its owner, and makes none. -/
theorem Call.abandon_keeps {call : Call} (dropped : call.abandon? clock s = some t) :
    t.owners = s.owners ∧ t.runs = s.runs := by
  cases call with
  | acquire demand phase =>
    cases dropped
    cases phase <;> exact ⟨rfl,rfl⟩
  | bind grant phase =>
    cases dropped
    unfold Bind.abandon
    split
    · exact ⟨rfl,rfl⟩
    · cases phase <;> exact ⟨rfl,rfl⟩
  | _ => cases dropped

namespace Traffic

variable {conduct : Conduct} {lost : Multiset Grip} {w w' : Traffic}

theorem Change.ownsMade (change : Change policy conduct w w') (sound : Sound w.state.skeleton w.makers (w.grips + lost))
    (owns : w.state.skeleton.OwnsMade) : w'.state.skeleton.OwnsMade := by
  cases change with
  | keeps skeleton makers grips => exact skeleton ▸ owns
  | joins skeleton makers grips idle visits wants given => exact skeleton ▸ owns
  | parts skeleton makers grips idle => exact skeleton ▸ owns
  | @moves g h g' rest news before move covers after makers =>
    intro p member
    refine Nat.lt_of_lt_of_le ?_ move.jobs_grow.length_le
    rcases move.owners member with old | ⟨d,fresh,wants⟩
    · exact owns p old
    · rw [before,Multiset.cons_add] at sound
      have made := sound.head.fresh p.1 d fresh wants
      have known : p.1 < w.makers.length := (List.getElem?_eq_some_iff.mp made).1
      rw [sound.listed.made] at known
      simpa [State.skeleton] using known

theorem ownsMade_of_interrupted (came : Interrupted policy conduct lost w) : w.state.skeleton.OwnsMade := by
  induction came with
  | start => nofun
  | step before step ih =>
    have sound := sound_of_interrupted before
    exact (step.change sound.listed.working).ownsMade sound ih
  | @disconnect lost w before call calls going s dropped ih =>
    obtain ⟨owners,runs⟩ := Call.abandon_keeps dropped
    simpa [Skeleton.OwnsMade,State.skeleton,owners,runs] using ih

end Traffic

/-! ### The way to the failure -/

namespace Acquire

/-- Whether a request is where it can only go round in circles, since the entry of its key has left the table. -/
def Circles (key : Key) (s : State) (phase : Acquire) : Prop :=
  ∃ entry e, s.find? key = some entry ∧ s.entries[entry]? = some e ∧ e.isRetired = true ∧
    (phase = lookup ∨ phase = approaching entry ∨ (∃ ticket, phase = locking entry ticket) ∨ phase = retrying)

theorem Circles.turn {phase : Acquire} (circles : Circles demand.key s phase) :
    (turns policy clock demand phase s).Leads (fun t next => Circles demand.key t next) (fun _ _ => False) := by
  obtain ⟨entry,e,found,here,retired,rfl | rfl | ⟨ticket,rfl⟩ | rfl⟩ := circles
  · have same : enter clock demand.key s = (s,entry) := by rw [enter,found]
    simp only [turns,Acquire.turn,same]
    exact ⟨entry,e,found,here,retired,.inr (.inl rfl)⟩
  · exact ⟨entry,_,found,entry_approached here,retired,.inr (.inr (.inl ⟨_,rfl⟩))⟩
  · simp only [turns,Acquire.turn]
    split
    · trivial
    · rename_i e' locked
      obtain rfl : e = e' := Option.some.inj (here.symm.trans (Option.filter_eq_some_iff.mp locked).1)
      rw [decide,if_pos retired]
      refine ⟨entry,{ e with
        lock := e.lock.leave ticket, references := e.references - 1, lastAccess := clock.nanos },found,?_,retired,
        .inr (.inr (.inr rfl))⟩
      simp [State.letGo,State.unlock,State.onEntry,here]
  · exact ⟨entry,e,found,here,retired,.inl rfl⟩

theorem Circles.not_alone {phase : Acquire} {r : Result Lease} (circles : Circles demand.key s phase) :
    ¬ Turn.Alone (turns policy clock demand) phase s t r := by
  intro alone
  induction alone with
  | ends turned =>
    have leads : (turns policy clock demand _ _).Leads _ _ := circles.turn
    rw [turned] at leads
    exact leads
  | goesOn turned _ ih =>
    have leads : (turns policy clock demand _ _).Leads _ _ := circles.turn
    rw [turned] at leads
    exact ih leads

/-- A request that comes to its end while nobody disturbs it finds nobody at the entry of its key. -/
theorem open_of_alone {holds : Multiset Hold} (queued : Queued s.skeleton.locks holds) {r : Result Lease}
    (alone : Turn.Alone (turns policy clock demand) .lookup s t r) : s.IsOpen demand.key := by
  intro entry e found here
  have same : enter clock demand.key s = (s,entry) := by rw [enter,found]
  have looked : turns policy clock demand .lookup s = .goesOn s (.approaching entry) := by simp only [turns,turn,same]
  have waits := (alone.of_goesOn looked).of_goesOn rfl
  have asked := entry_approached here
  constructor
  · cases queue : e.lock.queue with
    | nil => exact List.isEmpty_iff.mpr queue
    | cons ticket rest =>
      have issued := queued.issued entry e.lock (by simp [State.skeleton,here]) ticket (queue ▸ List.mem_cons_self)
      have other : ticket ≠ e.lock.next := Nat.ne_of_lt issued
      have locked : ((s.hold entry).askLock entry).locked? entry e.lock.next = none := by
        simp [State.locked?,asked,Lock.isHeldBy,Lock.request,queue,other]
      rw [nextTicket_hold here] at waits
      have blocked : turns policy clock demand (.locking entry e.lock.next) ((s.hold entry).askLock entry) =
          .blocked none := by simp only [turns,turn,locked]
      exact absurd blocked waits.not_blocked
  -- nobody else takes a retired entry out of the table, and so the request would find it again and again
  · rw [← Bool.not_eq_true]
    intro retired
    have circles : Circles demand.key ((s.hold entry).askLock entry) (.locking entry ((s.hold entry).nextTicket entry)) :=
      ⟨entry,_,found,asked,retired,.inr (.inr (.inl ⟨_,rfl⟩))⟩
    exact circles.not_alone waits

/-- A request for a segment that fails at the lock of its entry fails while it starts a run. -/
theorem starting_of_error (request : demand.request = .segment index) {e : Entry}
    (locked : s.locked? entry ticket = some e) (listed : e.isRetired = false)
    (alone : Turn.Alone (turns policy clock demand) (.locking entry ticket) s t (.error why)) :
    Turn.Alone (turns policy clock demand) (.starting entry ticket .begin) s t (.error why) := by
  have reuses {phase : Acquire} (run : Nat) (alone : Turn.Alone (turns policy clock demand) phase s t (.error why))
      (turned : turns policy clock demand phase s = reuse demand s entry ticket run) : False := by
    cases (alone.of_ends turned).2
  cases bound : e.run with
  | none =>
    refine alone.of_goesOn ?_
    simp [turns,turn,locked,decide,listed,request,bound]
  | some run =>
    cases suited : suits policy s e run index with
    | false =>
      refine alone.of_goesOn ?_
      simp [turns,turn,locked,decide,listed,request,bound,suited]
    | true =>
      cases exited : s.hasExited run with
      | false =>
        refine (reuses run alone ?_).elim
        simp [turns,turn,locked,decide,listed,request,bound,suited,exited]
      | true =>
        have lists : turns policy clock demand (.locking entry ticket) s = .goesOn s (.listing entry ticket run) := by
          simp [turns,turn,locked,decide,listed,request,bound,suited,exited]
        have listed := (alone.of_goesOn lists).of_goesOn rfl
        cases holds : (((s.runs[run]?).bind fun r => r.available? true).bind fun a =>
            a.segment? (Acquire.index demand)).isSome with
        | true =>
          rw [holds] at listed
          exact (reuses run listed rfl).elim
        | false =>
          rw [holds] at listed
          exact listed.of_goesOn rfl

end Acquire

/-- Why no run can be started in a state. -/
inductive State.Refuses (policy : Policy) (s : State) : Error → Prop
  | root (blocked : s.rootIsBlocked = true) : Refuses policy s (.directory policy.outputRoot notADirectory)
  | directory {cause : String} (fails : s.directoryFailure = some cause) (path : String) :
      Refuses policy s (.directory path cause)
  | process {cause : String} (fails : s.script.failure = some cause) : Refuses policy s (.spawnFailed "ffmpeg" cause)

/-- What is left when no run is started for an entry, before its lock is given back: its run is unbound, and a run that
    was made is destroyed and has no directory if it could be removed. -/
structure State.Empties (s : State) (entry : Nat) (t : State) : Prop where
  entries : t.entries = (s.unbindRun entry).entries
  owners : t.owners = (s.unbindRun entry).owners
  table : t.table = s.table
  launches : t.launches = s.launches
  runs : t.runs = s.runs ∨ ∃ r, t.runs = s.runs ++ [r] ∧ r.isDestroyed = true ∧
    (s.removalFails = false → r.output = none)

theorem modify_last {α : Type} (l : List α) (a : α) (f : α → α) : (l ++ [a]).modify l.length f = l ++ [f a] := by
  rw [List.modify_eq_take_cons_drop (by simp)]
  simp

/-- A run that was made and did not start is destroyed, and its directory is removed if it can be. -/
theorem State.runs_discard (s : State) (r : Run) :
    ∃ r', ((State.refuse { s with runs := s.runs ++ [r] } s.runs.length).removeOutput s.runs.length).runs =
        s.runs ++ [r'] ∧ r'.isDestroyed = true ∧ (s.removalFails = false → r'.output = none) := by
  have refused : (State.refuse { s with runs := s.runs ++ [r] } s.runs.length).runs =
      s.runs ++ [Run.destroy { r with stage := .exited }] := by
    simp only [refuse,destroy,onRun,Teardown.noteExit,modify_last]
  refine ⟨_,by rw [removeOutput,onRun,refused,modify_last],?_,?_⟩
  · split <;> rfl
  · intro removes
    change (if s.removalFails then _ else _ : Run).output = none
    rw [removes]
    rfl

namespace Start

variable {o : Order} {replaced : Option Nat} {run : Nat} {cause : String}

theorem refuses_root (blocked : s.rootIsBlocked = true) : turn policy o (.makeRoot replaced) s =
    .ends s ⟨replaced,.error (.directory policy.outputRoot notADirectory)⟩ := if_pos blocked

theorem refuses_directory (fails : s.directoryFailure = some cause) : turn policy o (.makeDirectory replaced) s =
    .ends s ⟨replaced,.error (.directory (o.job policy s.runs.length).directory cause)⟩ := by
  simp only [turn,fails]

theorem refuses_process (fails : s.script.failure = some cause) : turn policy o (.launch replaced run) s =
    .goesOn (s.refuse run) (.discard replaced run (.spawnFailed "ffmpeg" cause)) := by
  have refused : s.launch run = .error (.spawnFailed "ffmpeg" cause) := by
    unfold State.launch
    rw [fails]
  simp only [turn,refused]

/-- The start of a run that fails. -/
theorem empties_of_error
    (alone : Turn.Alone (fun phase s => turn policy o phase s) .begin s t ⟨replaced,.error why⟩) :
    s.Refuses policy why ∧ replaced = (s.entries[o.entry]?).bind (·.run) ∧ s.Empties o.entry t := by
  have rooting := alone.of_goesOn rfl
  cases root : s.rootIsBlocked with
  | true =>
    obtain ⟨rfl,same⟩ := rooting.of_ends (refuses_root root)
    cases same
    exact ⟨.root root,rfl,rfl,rfl,rfl,rfl,.inl rfl⟩
  | false =>
    have making := rooting.of_goesOn (roots root)
    cases directory : s.directoryFailure with
    | some cause =>
      obtain ⟨rfl,same⟩ := making.of_ends (refuses_directory directory)
      cases same
      exact ⟨.directory directory _,rfl,rfl,rfl,rfl,rfl,.inl rfl⟩
    | none =>
      have launching := making.of_goesOn (makes directory)
      cases process : s.script.failure with
      -- nothing is in the way of a run, so that the start would not have failed
      | none =>
        have ready : (s.remade policy o).Launches := ⟨root,directory,process⟩
        obtain ⟨u,launched,_⟩ := State.launch_of_launches ready s.runs.length
        cases (alone.unique (Start.alone o ⟨root,directory,process⟩ launched)).2
      | some cause =>
        have discarding := launching.of_goesOn (refuses_process process)
        obtain ⟨rfl,same⟩ := discarding.of_ends rfl
        cases same
        have gone := (s.unbindRun o.entry).runs_discard { job := o.job policy s.runs.length }
        exact ⟨.process process,rfl,rfl,rfl,rfl,rfl,.inr gone⟩

end Start

namespace Acquire

/-- A request that fails while it starts a run. -/
theorem empties_of_error
    (alone : Turn.Alone (turns policy clock demand) (.starting entry ticket .begin) s t (.error why)) :
    s.Refuses policy why ∧ ∃ u, s.Empties entry u ∧
      t = ((u.unlock entry ticket).replace ⟨(s.entries[entry]?).bind (·.run),.error why⟩).letGo clock entry := by
  have part (phase : Start) (s : State) : turns policy clock demand (.starting entry ticket phase) s =
      (Start.turn policy (order demand entry (Acquire.index demand)) phase s).within (.starting entry ticket)
        (settle clock entry ticket) := rfl
  have ends (s : State) (started : Started) : ∃ t r, settle clock entry ticket s started = .ends t r := by
    unfold settle
    cases started.outcome <;> exact ⟨_,_,rfl⟩
  obtain ⟨u,⟨replaced,outcome⟩,started,settled⟩ := alone.of_within part ends
  cases outcome with
  | ok run => cases settled
  | error cause =>
    cases settled
    obtain ⟨refuses,rfl,empties⟩ := Start.empties_of_error started
    exact ⟨refuses,u,empties,rfl⟩

end Acquire

/-! ### What is left -/

namespace State

/-- A run that is destroyed is marked so once. -/
theorem runs_destroyDetached (s : State) (run : Nat) :
    (s.destroyDetached run).runs = s.runs.modify run fun r => if r.isDestroyed then r else r.destroy := by
  rw [List.modify_eq_set_getElem?]
  unfold destroyDetached State.isDestroyed
  cases here : s.runs[run]? with
  | none => rfl
  | some r =>
    cases gone : r.isDestroyed with
    | true =>
      obtain ⟨inside,rfl⟩ := List.getElem?_eq_some_iff.mp here
      simp [gone]
    | false => simp [gone,spawn,destroy,onRun,List.modify_eq_set_getElem?,here]

/-- What becomes of a state when a request that holds an entry gives up starting a run for it. -/
structure GivesUp (s : State) (clock : Clock) (entry ticket : Nat) (t : State) : Prop where
  entries : t.entries = s.entries.modify entry fun e => { e with
    run := none, lock := e.lock.leave ticket, references := e.references - 1, lastAccess := clock.nanos }
  table : t.table = s.table
  owners : t.owners = (s.unbindRun entry).owners
  launches : t.launches = s.launches
  kept : ∀ run, run < s.runs.length → (s.entries[entry]?).bind (·.run) ≠ some run → t.runs[run]? = s.runs[run]?
  replaced : ∀ run, run < s.runs.length → (s.entries[entry]?).bind (·.run) = some run →
    ∃ r, t.runs[run]? = some r ∧ r.isDestroyed = true
  made : ∀ run r, s.runs.length ≤ run → t.runs[run]? = some r →
    run = s.runs.length ∧ r.isDestroyed = true ∧ (s.removalFails = false → r.output = none)

theorem runs_replace_of_ne (s : State) {started : Started} {run : Nat} (differs : started.replaced ≠ some run) :
    (s.replace started).runs[run]? = s.runs[run]? := by
  unfold replace
  split
  · rename_i old replaced
    rw [replaced] at differs
    have differs : old ≠ run := fun same => differs (congrArg some same)
    rw [runs_destroyDetached,List.getElem?_modify_ne _ _ differs]
  · rfl

theorem destroyed_of_replace (s : State) {started : Started} {run : Nat} (replaced : started.replaced = some run)
    (inside : run < s.runs.length) : ∃ r, (s.replace started).runs[run]? = some r ∧ r.isDestroyed = true := by
  rw [replace,replaced]
  dsimp only
  rw [runs_destroyDetached,List.getElem?_modify_eq,List.getElem?_eq_getElem inside]
  refine ⟨_,rfl,?_⟩
  dsimp only
  split
  · assumption
  · rfl

theorem Empties.runs_of_lt {run : Nat} (empties : s.Empties entry u) (old : run < s.runs.length) :
    u.runs[run]? = s.runs[run]? := by
  rcases empties.runs with same | ⟨r,more,_⟩
  · rw [same]
  · rw [more,List.getElem?_append_left old]

theorem Empties.givesUp (empties : s.Empties entry u)
    (known : ∀ run, (s.entries[entry]?).bind (·.run) = some run → run < s.runs.length) :
    s.GivesUp clock entry ticket
      (((u.unlock entry ticket).replace ⟨(s.entries[entry]?).bind (·.run),.error why⟩).letGo clock entry) := by
  let started : Started := ⟨(s.entries[entry]?).bind (·.run),.error why⟩
  have beside := (u.unlock entry ticket).beside_replace started
  have skeleton := (u.unlock entry ticket).skeleton_replace started
  have unchanged {run : Nat} (other : started.replaced ≠ some run) :
      ((u.unlock entry ticket).replace started).runs[run]? = u.runs[run]? :=
    (u.unlock entry ticket).runs_replace_of_ne other
  constructor
  case entries =>
    change ((u.unlock entry ticket).replace started).entries.modify entry _ = _
    rw [beside.entries]
    simp only [unlock,onEntry,empties.entries,unbindRun,List.modify_modify_eq]
    rfl
  case table =>
    have table := congrArg Skeleton.table skeleton
    refine Eq.trans (Eq.trans table ?_) empties.table
    cases started.replaced <;> rfl
  case owners =>
    have owners := congrArg Skeleton.owners skeleton
    refine Eq.trans (Eq.trans owners ?_) empties.owners
    cases started.replaced <;> rfl
  case launches =>
    exact beside.launches.trans empties.launches
  case kept =>
    intro run old other
    exact (unchanged other).trans (empties.runs_of_lt old)
  case replaced =>
    intro run old bound
    have replaced : started.replaced = some run := bound
    have here := empties.runs_of_lt old
    rw [List.getElem?_eq_getElem old] at here
    exact (u.unlock entry ticket).destroyed_of_replace replaced (List.getElem?_eq_some_iff.mp here).1
  case made =>
    intro run r new here
    -- the run that was bound is older than the one that was made, and so destroying it leaves that one as it is
    have other : started.replaced ≠ some run := fun bound => Nat.not_lt.mpr new (known run bound)
    have here : u.runs[run]? = some r := (unchanged other).symm.trans here
    rcases empties.runs with same | ⟨r',more,gone,cleared⟩
    · rw [same,List.getElem?_eq_none new] at here
      cases here
    · rw [more,List.getElem?_append_right new] at here
      have first : run - s.runs.length = 0 := by
        obtain ⟨inside,_⟩ := List.getElem?_eq_some_iff.mp here
        simpa using inside
      rw [first] at here
      cases here
      exact ⟨Nat.le_antisymm (Nat.le_of_sub_eq_zero first) new,gone,cleared⟩

end State

/-- How many requests hold the entry of a key; none if it has no entry. -/
def State.referencesOf (s : State) (key : Key) : Nat :=
  (((s.find? key).bind (s.entries[·]?)).map (·.references)).getD 0

namespace Acquire

/-- The entry that a request finds for its key, or makes, beside those of the other keys. -/
structure Admits (s : State) (key : Key) (t : State) (entry : Nat) (e : Entry) : Prop
    extends Enters s key t entry e where
  references : e.references = s.referencesOf key
  owners : t.owners = s.owners
  stays : ∀ entry', s.find? key = some entry' → entry' = entry
  others : ∀ other, other ≠ key → t.find? other = s.find? other ∧ ∀ entry', s.find? other = some entry' →
    entry' ≠ entry ∧ t.entries[entry']? = s.entries[entry']?

theorem admits_of_open {makers : List Key} (clock : Clock) (listed : Listed s.skeleton makers) (vacant : s.IsOpen key) :
    ∃ e, Admits s key (enter clock key s).1 (enter clock key s).2 e := by
  have known {other : Key} {entry : Nat} (found : s.find? other = some entry) : entry < s.entries.length := by
    simpa [State.skeleton] using listed.table _ (State.mem_of_find? found)
  obtain ⟨e,enters⟩ := enters_of_open clock vacant (fun _ => known)
  cases found : s.find? key with
  | some entry =>
    have same : enter clock key s = (s,entry) := by rw [enter,found]
    rw [same] at enters ⊢
    refine ⟨e,enters,?_,rfl,fun entry' found' => Option.some.inj (found'.symm.trans found),?_⟩
    · simp [State.referencesOf,found,enters.here]
    · intro other differs
      refine ⟨rfl,fun entry' found' => ⟨?_,rfl⟩⟩
      rintro rfl
      exact differs (listed.names _ _ _ (State.mem_of_find? found') (State.mem_of_find? found))
  | none =>
    have new : enter clock key s = ({ s with
        entries := s.entries ++ [{ lastAccess := clock.nanos }], table := s.table ++ [(key,s.entries.length)] },
        s.entries.length) := by rw [enter,found]
    rw [new] at enters ⊢
    have fresh : e = { lastAccess := clock.nanos } := by simpa using enters.here.symm
    refine ⟨e,enters,?_,rfl,?_,?_⟩
    · simp [State.referencesOf,found,fresh]
    · intro entry' found'
      cases found.symm.trans found'
    · intro other differs
      refine ⟨?_,fun entry' found' => ⟨(known found').ne,List.getElem?_append_left (known found')⟩⟩
      simp [State.find?,List.find?_append,Ne.symm differs]

end Acquire

/-- What a request for a session leaves when it started no run. -/
structure State.Spared (s : State) (key : Key) (t : State) : Prop where
  /-- The session is in the table, without a run, and nobody is at its entry. -/
  listed : ∃ entry e, t.find? key = some entry ∧ t.entries[entry]? = some e ∧ e.isRetired = false ∧ e.run = none ∧
    e.lock.isFree = true
  stays : ∀ entry, s.find? key = some entry → t.find? key = some entry
  references : t.referencesOf key = s.referencesOf key
  replaced : ∀ run, s.boundTo? key = some run → ∃ r, t.runs[run]? = some r ∧ r.isDestroyed = true
  owners : ∀ p, p ∈ t.owners ↔ p ∈ s.owners ∧ s.boundTo? key ≠ some p.1
  /-- A run that was made has no owner, is destroyed and has no directory if it could be removed. -/
  unowned : ∀ p ∈ t.owners, p.1 < s.runs.length
  made : ∀ run r, s.runs.length ≤ run → t.runs[run]? = some r →
    run = s.runs.length ∧ r.isDestroyed = true ∧ (s.removalFails = false → r.output = none)
  kept : ∀ run, run < s.runs.length → s.boundTo? key ≠ some run → t.runs[run]? = s.runs[run]?
  others : ∀ other, other ≠ key → t.find? other = s.find? other ∧
    ∀ entry, s.find? other = some entry → t.entries[entry]? = s.entries[entry]?
  launches : t.launches = s.launches

namespace State

theorem mem_owners_unbindRun (s : State) (entry : Nat) (p : Nat × Nat) :
    p ∈ (s.unbindRun entry).owners ↔ p ∈ s.owners ∧ (s.entries[entry]?).bind (·.run) ≠ some p.1 := by
  unfold unbindRun
  cases (s.entries[entry]?).bind (·.run) with
  | none => simp
  | some run => simp [@eq_comm _ run]

/-- A request that holds the entry that it has found or made, and gives up. -/
theorem GivesUp.spared {e : Entry} (admits : Acquire.Admits s key u entry e)
    (known : ∀ run, s.boundTo? key = some run → run < s.runs.length) (owns : s.skeleton.OwnsMade)
    (gives : ((u.hold entry).askLock entry).GivesUp clock entry ((u.hold entry).nextTicket entry) t) :
    s.Spared key t := by
  obtain ⟨⟨here,free,listed,found,runs,run,_⟩,references,owners,stays,others⟩ := admits
  let held := (u.hold entry).askLock entry
  have queue : e.lock.queue = [] := List.isEmpty_iff.mp free
  have asked : held.entries[entry]? = some { e with references := e.references + 1, lock := e.lock.request } :=
    Acquire.entry_approached here
  have bound : (held.entries[entry]?).bind (·.run) = s.boundTo? key := by
    rw [asked]
    exact run
  have made : held.runs = s.runs := runs.runs
  have after : t.find? key = some entry := by
    rw [State.find?,gives.table]
    exact found
  have left : t.entries[entry]? = some { e with
      run := none, lock := e.lock.request.leave e.lock.next, lastAccess := clock.nanos } := by
    rw [gives.entries,List.getElem?_modify_eq,asked,Acquire.nextTicket_hold here]
    simp
  have owned (p : Nat × Nat) : p ∈ t.owners ↔ p ∈ s.owners ∧ s.boundTo? key ≠ some p.1 := by
    have same : ((u.hold entry).askLock entry).owners = s.owners := owners
    rw [gives.owners,mem_owners_unbindRun,bound,same]
  constructor
  case listed =>
    refine ⟨entry,_,after,left,listed,rfl,?_⟩
    simp [Lock.isFree,Lock.leave,Lock.request,queue]
  case stays =>
    intro entry' found'
    exact stays entry' found' ▸ after
  case references =>
    simp [referencesOf,after,left,references]
  case replaced =>
    intro old replaced
    exact gives.replaced old (made ▸ known old replaced) (bound.trans replaced)
  case owners =>
    exact owned
  case unowned =>
    intro p member
    simpa [skeleton] using owns p ((owned p).mp member).1
  case made =>
    rw [← made,← runs.removalFails]
    exact gives.made
  case kept =>
    intro other old unbound
    rw [← made]
    exact gives.kept other (made ▸ old) (bound ▸ unbound)
  case others =>
    intro other differs
    obtain ⟨same,apart⟩ := others other differs
    refine ⟨?_,fun entry' found' => ?_⟩
    · rw [State.find?,gives.table]
      exact same
    · obtain ⟨elsewhere,same⟩ := apart entry' found'
      rw [gives.entries,List.getElem?_modify_ne _ _ elsewhere.symm,← same]
      simp [askLock,hold,onEntry,List.getElem?_modify_ne _ _ elsewhere.symm]
  case launches =>
    exact gives.launches.trans runs.launches

theorem SameRuns.refuses (same : s.SameRuns t) (refuses : t.Refuses policy why) : s.Refuses policy why := by
  cases refuses with
  | root blocked => exact .root (same.rootIsBlocked ▸ blocked)
  | directory fails path => exact .directory (same.directoryFailure ▸ fails) path
  | process fails => exact .process (same.script ▸ fails)

end State

/-- A request for a segment that fails while nobody disturbs it. -/
theorem Acquire.spared_of_error {makers : List Key} {grips : Multiset Grip} (sound : Sound s.skeleton makers grips)
    (owns : s.skeleton.OwnsMade) (request : demand.request = .segment index)
    (failed : Turn.Alone (turns policy clock demand) .lookup s t (.error why)) :
    s.Refuses policy why ∧ s.Spared demand.key t := by
  have known : ∀ run, s.boundTo? demand.key = some run → run < s.runs.length := by
    intro run bound
    rw [State.boundTo?_eq,Option.bind_eq_some_iff] at bound
    obtain ⟨entry,_,bound⟩ := bound
    obtain ⟨key,made,_⟩ := sound.listed.bound entry run bound
    have inside := (List.getElem?_eq_some_iff.mp made).1
    rw [sound.listed.made] at inside
    simpa [State.skeleton] using inside
  obtain ⟨e,admits⟩ := admits_of_open clock sound.listed (open_of_alone sound.queued failed)
  have locking := (failed.of_goesOn rfl).of_goesOn rfl
  have locked := locked_of_free admits.here admits.free
  have starting := starting_of_error request locked admits.listed locking
  obtain ⟨refuses,u,empties,rfl⟩ := empties_of_error starting
  obtain ⟨runs,processes,launches,script,root,directory,removal⟩ := admits.runs
  have same : s.SameRuns ((State.hold (enter clock demand.key s).1 (enter clock demand.key s).2).askLock
    (enter clock demand.key s).2) := ⟨runs,processes,launches,script,root,directory,removal⟩
  refine ⟨same.refuses refuses,(empties.givesUp ?_).spared admits known owns⟩
  intro run bound
  have here := (Option.filter_eq_some_iff.mp locked).1
  rw [here] at bound
  rw [same.runs]
  exact known run (admits.run.symm.trans bound)

/-- Whether a request that nobody disturbs starts one run, at a segment, and comes back with it. -/
def Acquire.StartsAt (policy : Policy) (clock : Clock) (demand : Demand) (s : State) (index : Nat) : Prop :=
  ∃ t entry run r, Turn.Alone (turns policy clock demand) .lookup s t (.ok ⟨entry,some run,none⟩) ∧
    t.boundTo? demand.key = some run ∧ t.runs[run]? = some r ∧ r.isDestroyed = false ∧ r.job.first = index ∧
    t.launches = s.launches ++ [run] ∧ s.runs[run]? = none

/-- The session that a failed request has left is served by the next one that can start a run. -/
theorem State.Spared.startsAt (spared : s.Spared demand.key t) (table : u.table = t.table)
    (entries : u.entries = t.entries) (launches : u.Launches) (request : demand.request = .segment index) :
    Acquire.StartsAt policy clock demand u index := by
  obtain ⟨entry,e,found,here,listed,unbound,free⟩ := spared.listed
  have found : u.find? demand.key = some entry := by
    rw [State.find?,table]
    exact found
  have here : u.entries[entry]? = some e := entries ▸ here
  have vacant : u.IsOpen demand.key := by
    intro entry' e' found' here'
    cases found.symm.trans found'
    cases here.symm.trans here'
    exact ⟨free,listed⟩
  have known : ∀ entry', u.find? demand.key = some entry' → entry' < u.entries.length := by
    intro entry' found'
    cases found.symm.trans found'
    exact (List.getElem?_eq_some_iff.mp here).1
  obtain ⟨v,entry',ticket,e',entered,arrives⟩ := Acquire.arrives_of_open policy clock vacant known
  have nothing : e'.run = none := by
    rw [arrives.run,State.boundTo?,found,Option.bind_some,here]
    exact unbound
  have alive : ∀ run, e'.run = some run → v.isDestroyed run = false := by
    intro run bound
    cases nothing.symm.trans bound
  have serves : ¬ e'.Serves policy v index := by
    rintro ⟨run,_,bound,_⟩
    cases nothing.symm.trans bound
  obtain ⟨x,alone,restarted⟩ := arrives.restarts alive launches request serves
  obtain ⟨r,binds,made,living,is_job,more,fresh⟩ := arrives.restarted restarted
  refine ⟨x,entry',_,r,entered _ _ alone,binds,made,living,?_,more,fresh⟩
  rw [is_job]
  rfl

namespace Traffic

variable {conduct : Conduct} {lost : Multiset Grip} {w : Traffic}

/-- A request for a segment that fails while nobody disturbs it, in every state that a history of the traffic comes to,
    also when players have gone away. No run could be started there, nothing is left of the attempt, and the next request
    for the session that can start a run starts one at the segment that it asks for. -/
theorem failed_start_leaves_nothing_behind (came : Interrupted policy conduct lost w)
    (request : demand.request = .segment index)
    (failed : Turn.Alone (Acquire.turns policy clock demand) .lookup w.state t (.error why)) :
    w.state.Refuses policy why ∧ w.state.Spared demand.key t ∧
      ∀ (u : State) (clock' : Clock) (demand' : Demand) (index' : Nat), u.table = t.table → u.entries = t.entries →
        u.Launches → demand'.key = demand.key → demand'.request = .segment index' →
        Acquire.StartsAt policy clock' demand' u index' := by
  obtain ⟨refuses,spared⟩ :=
    Acquire.spared_of_error (sound_of_interrupted came) (ownsMade_of_interrupted came) request failed
  refine ⟨refuses,spared,?_⟩
  intro u clock' demand' index' table entries launches same request'
  rw [← same] at spared
  exact spared.startsAt table entries launches request'

/-- A player asks again for a segment that its run does not cover, and the encoder is gone. -/
theorem session_survives_missing_encoder :
    ∃ lost w t, Interrupted default .free lost w ∧ w.state.boundTo? firstRequest.key = some 0 ∧
      Turn.Alone (Acquire.turns default ⟨0,0⟩ firstRequest) .lookup w.state t
        (.error (.spawnFailed "ffmpeg" "No such file or directory")) ∧
      t.referencesOf firstRequest.key = w.state.referencesOf firstRequest.key ∧
      (∃ r, t.runs[0]? = some r ∧ r.isDestroyed = true) ∧ t.launches = w.state.launches ∧
      Acquire.StartsAt default ⟨0,0⟩ firstRequest
        { t with script := {}, rootIsBlocked := false, directoryFailure := none } 0 := by
  obtain ⟨lost,w,missing,bound,t,failed⟩ :
      ∃ lost w, Interrupted default .free lost w ∧ w.state.boundTo? firstRequest.key = some 0 ∧
        ∃ t, Turn.Alone (Acquire.turns default ⟨0,0⟩ firstRequest) .lookup w.state t
          (.error (.spawnFailed "ffmpeg" "No such file or directory")) := by
    have asked : Interrupted default .free _ _ := .step .start (.ask firstRequest trivial)
    have found := asked.step (.goesOn _ 0 rfl rfl)
    have entered := found.step (.goesOn _ 0 rfl rfl)
    have inside := entered.step (.goesOn _ 0 rfl rfl)
    have unbound := inside.step (.goesOn _ 0 rfl rfl)
    have rooted := unbound.step (.goesOn _ 0 rfl rfl)
    have made := rooted.step (.goesOn _ 0 rfl rfl)
    have served := made.step (.ends _ 0 rfl rfl)
    have missing := served.step (.happen (.script { failure := some "No such file or directory" }))
    exact ⟨_,_,missing,rfl,_,
      .goesOn rfl (.goesOn rfl (.goesOn rfl (.goesOn rfl (.goesOn rfl (.goesOn rfl (.goesOn rfl (.ends rfl)))))))⟩
  obtain ⟨_,spared,again⟩ := failed_start_leaves_nothing_behind missing rfl failed
  exact ⟨lost,w,t,missing,bound,failed,spared.references,spared.replaced 0 bound,spared.launches,
    again _ _ _ _ rfl rfl ⟨rfl,rfl,rfl⟩ rfl rfl⟩

end Traffic
end Playout.Playback
