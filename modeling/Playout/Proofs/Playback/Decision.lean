import Playout.Proofs.Playback.OneRun
import Playout.Proofs.Playback.Orders
import Playout.Proofs.Playback.References
import Playout.Proofs.Run.Available

/-!
Whether the run of a session goes on being used or a new one is started. A request
for a segment that comes to the lock of its entry and is not disturbed there is
served by the bound run, if that covers the segment, is near enough and is still
at work or has written the segment; otherwise one run is started at the segment
and the bound one is destroyed.
-/
namespace Playout.Playback

/-- Whether the run that is bound to an entry can serve a segment. -/
def Entry.Serves (policy : Policy) (s : State) (e : Entry) (index : Nat) : Prop :=
  ∃ run r, e.run = some run ∧ s.runs[run]? = some r ∧ (r.job.first ≤ index ∧ index < r.job.last) ∧
    (e.lastRequested ≤ index ∧ index ≤ min (e.lastRequested + policy.reuseWindow) max32) ∧
    (s.hasExited run = false ∨ ∃ a name, r.available? true = some a ∧ (index,name) ∈ a.segments)

namespace State

/-- The run that the table binds to a key. -/
def boundTo? (s : State) (key : Key) : Option Nat :=
  (s.find? key).bind fun entry => (s.entries[entry]?).bind (·.run)

/-- Whether the run that the table binds to a key can serve a segment. -/
def Serves (s : State) (policy : Policy) (key : Key) (index : Nat) : Prop :=
  ∃ entry e, s.find? key = some entry ∧ s.entries[entry]? = some e ∧ e.Serves policy s index

/-- Whether nobody is at the entry of a key. -/
def IsOpen (s : State) (key : Key) : Prop :=
  ∀ entry e, s.find? key = some entry → s.entries[entry]? = some e → e.lock.isFree = true ∧ e.isRetired = false

/-- Whether a run that is started now gets its directory and its process. -/
structure Launches (s : State) : Prop where
  root : s.rootIsBlocked = false
  directory : s.directoryFailure = none
  process : s.script.failure = none

/-- Whether two states have the same runs, and start new ones alike. -/
structure SameRuns (s t : State) : Prop where
  runs : t.runs = s.runs
  processes : t.processes = s.processes
  launches : t.launches = s.launches
  script : t.script = s.script
  rootIsBlocked : t.rootIsBlocked = s.rootIsBlocked
  directoryFailure : t.directoryFailure = s.directoryFailure
  removalFails : t.removalFails = s.removalFails

theorem SameRuns.serves {s t : State} (same : s.SameRuns t) {policy : Policy} {e e' : Entry} {index : Nat}
    (run : e'.run = e.run) (requested : e'.lastRequested = e.lastRequested) :
    e'.Serves policy t index ↔ e.Serves policy s index := by
  simp only [Entry.Serves,hasExited,stageOf,processOf?,same.runs,same.processes,run,requested]

theorem SameRuns.isDestroyed {s t : State} (same : s.SameRuns t) (run : Nat) :
    t.isDestroyed run = s.isDestroyed run := by
  simp only [State.isDestroyed,same.runs]

theorem SameRuns.launched {s t : State} (same : s.SameRuns t) (launches : s.Launches) : t.Launches where
  root := same.rootIsBlocked.trans launches.root
  directory := same.directoryFailure.trans launches.directory
  process := by rw [same.script]; exact launches.process

end State

namespace Acquire

variable {policy : Policy} {clock : Clock} {demand : Demand} {s : State} {entry ticket index : Nat} {e : Entry}

/-- The turns of a request for a session. -/
abbrev turns (policy : Policy) (clock : Clock) (demand : Demand) (phase : Acquire) (s : State) :
    Turn State Acquire (Result Lease) := phase.turn policy clock demand s

/-- Whether a run suits a request, in the words of its job. -/
theorem suits_eq {run : Nat} {r : Run} (found : s.runs[run]? = some r) (alive : s.isDestroyed run = false) :
    suits policy s e run index = true ↔ (r.job.first ≤ index ∧ index < r.job.last) ∧
      (e.lastRequested ≤ index ∧ index ≤ min (e.lastRequested + policy.reuseWindow) max32) := by
  have here : r.isDestroyed = false := by simpa [State.isDestroyed,found] using alive
  simp only [suits,found,here,Run.covers,Bool.not_false,Bool.true_and,Bool.and_eq_true,decide_eq_true_eq,and_assoc]

/-- A request that has come to the lock of an entry whose run can serve it. -/
theorem alone_of_serves (request : demand.request = .segment index) (locked : s.locked? entry ticket = some e)
    (listed : e.isRetired = false) (alive : ∀ run, e.run = some run → s.isDestroyed run = false)
    (serves : e.Serves policy s index) :
    Turn.Alone (turns policy clock demand) (.locking entry ticket) s
      ((s.onEntry entry fun e => { e with lastRequested := index }).unlock entry ticket)
      (.ok ⟨entry,e.run,none⟩) := by
  obtain ⟨run,r,bound,found,covers,near,works⟩ := serves
  have suited : suits policy s e run index = true := (suits_eq found (alive run bound)).mpr ⟨covers,near⟩
  have reused : reuse demand s entry ticket run =
      .ends ((s.onEntry entry fun e => { e with lastRequested := index }).unlock entry ticket)
        (.ok ⟨entry,some run,none⟩) := by
    rw [reuse,serve,index_eq request]
  rw [bound]
  cases exited : s.hasExited run with
  | false =>
    refine .ends ?_
    rw [← reused]
    simp [turns,turn,locked,decide,listed,request,bound,suited,exited]
  | true =>
    have written : ∃ a name, r.available? true = some a ∧ (index,name) ∈ a.segments := by
      rcases works with still | written
      · rw [still] at exited
        cases exited
      · exact written
    obtain ⟨a,name,here,member⟩ := written
    have holds : (a.segment? index).isSome = true := (a.segment?_isSome index).mpr ⟨name,member⟩
    have lists : turns policy clock demand (.locking entry ticket) s = .goesOn s (.listing entry ticket run) := by
      simp [turns,turn,locked,decide,listed,request,bound,suited,exited]
    have finds : turns policy clock demand (.listing entry ticket run) s = .goesOn s (.listed entry ticket run true) := by
      simp [turns,turn,found,here,index_eq request,holds]
    refine .goesOn lists (.goesOn finds (.ends ?_))
    rw [← reused]
    simp [turns,turn]

/-- A request that has come to the lock of an entry whose run cannot serve it starts one. -/
theorem alone_of_not_serves (request : demand.request = .segment index)
    (locked : s.locked? entry ticket = some e) (listed : e.isRetired = false)
    (alive : ∀ run, e.run = some run → s.isDestroyed run = false) (serves : ¬ e.Serves policy s index) {t : State}
    {r : Result Lease} (starts : Turn.Alone (turns policy clock demand) (.starting entry ticket .begin) s t r) :
    Turn.Alone (turns policy clock demand) (.locking entry ticket) s t r := by
  cases bound : e.run with
  | none =>
    refine .goesOn ?_ starts
    simp [turns,turn,locked,decide,listed,request,bound]
  | some run =>
    cases suited : suits policy s e run index with
    | false =>
      refine .goesOn ?_ starts
      simp [turns,turn,locked,decide,listed,request,bound,suited]
    | true =>
      cases found : s.runs[run]? with
      | none => simp [suits,found] at suited
      | some r' =>
        have within := (suits_eq found (alive run bound)).mp suited
        cases exited : s.hasExited run with
        | false => exact absurd ⟨run,r',bound,found,within.1,within.2,.inl exited⟩ serves
        | true =>
          have missing : ((r'.available? true).bind fun a => a.segment? index).isSome = false := by
            rw [Bool.eq_false_iff]
            intro holds
            obtain ⟨name,holds⟩ := Option.isSome_iff_exists.mp holds
            obtain ⟨a,here,holds⟩ := Option.bind_eq_some_iff.mp holds
            have holds : (a.segment? index).isSome = true := by rw [holds]; rfl
            obtain ⟨name,member⟩ := (a.segment?_isSome index).mp holds
            exact serves ⟨run,r',bound,found,within.1,within.2,.inr ⟨a,name,here,member⟩⟩
          have lists : turns policy clock demand (.locking entry ticket) s =
              .goesOn s (.listing entry ticket run) := by
            simp [turns,turn,locked,decide,listed,request,bound,suited,exited]
          have misses : turns policy clock demand (.listing entry ticket run) s =
              .goesOn s (.listed entry ticket run false) := by
            simp [turns,turn,found,index_eq request,missing]
          refine .goesOn lists (.goesOn misses (.goesOn ?_ starts))
          simp [turns,turn]

end Acquire

/-! ### Starting a run -/

namespace State

variable {s t : State} {key : Key} {entry run : Nat}

theorem boundTo?_eq (s : State) (key : Key) : s.boundTo? key = (s.find? key).bind s.skeleton.bound? := by
  simp only [boundTo?,bound?_skeleton]

theorem launch_of_launches (launches : s.Launches) (run : Nat) :
    ∃ t, s.launch run = .ok t ∧ t.launches = s.launches ++ [run] := by
  unfold launch
  rw [launches.process]
  exact ⟨_,rfl,rfl⟩

end State

/-- The state where the bound run of an entry is unbound and a new one is made. -/
def State.remade (policy : Policy) (order : Order) (s : State) : State :=
  { s.unbindRun order.entry with runs := s.runs ++ [{ job := order.job policy s.runs.length }] }

theorem State.skeleton_remade (policy : Policy) (order : Order) (s : State) : (s.remade policy order).skeleton =
    { (s.skeleton.bind order.entry none).disown (s.skeleton.bound? order.entry) with
      jobs := s.skeleton.jobs ++ [order.job policy s.runs.length], destroyed := s.skeleton.destroyed ++ [false] } := by
  rw [← s.skeleton_unbindRun]
  simp [skeleton,remade]

namespace Start

variable {policy : Policy} {order : Order} {s : State} {replaced : Option Nat}

theorem roots (root : s.rootIsBlocked = false) :
    turn policy order (.makeRoot replaced) s = .goesOn s (.makeDirectory replaced) :=
  if_neg (Bool.eq_false_iff.mp root)

theorem makes (directory : s.directoryFailure = none) : turn policy order (.makeDirectory replaced) s =
    .goesOn { s with runs := s.runs ++ [{ job := order.job policy s.runs.length }] } (.launch replaced s.runs.length) := by
  unfold turn
  dsimp only
  split
  · rename_i why failed
    rw [directory] at failed
    cases failed
  · rfl

theorem alone {t : State} (order : Order) (launches : s.Launches)
    (launched : (s.remade policy order).launch s.runs.length = .ok t) :
    Turn.Alone (fun phase s => Start.turn policy order phase s) .begin s (t.bindRun order.entry s.runs.length order.first)
      ⟨(s.entries[order.entry]?).bind (·.run),.ok s.runs.length⟩ := by
  have placed : (s.unbindRun order.entry).directoryFailure = none := launches.directory
  have begins : turn policy order (.launch ((s.entries[order.entry]?).bind (·.run)) s.runs.length) (s.remade policy order) =
      .ends (t.bindRun order.entry s.runs.length order.first) ⟨(s.entries[order.entry]?).bind (·.run),.ok s.runs.length⟩ := by
    simp only [turn,launched]
  exact .goesOn rfl (.goesOn (roots launches.root) (.goesOn (makes placed) (.ends begins)))

end Start

/-- What becomes of a state when a request that has the lock of an entry starts a run for it. -/
structure State.Restarted (s : State) (entry ticket first : Nat) (job : Encoder.Job) (t : State) : Prop where
  entries : t.entries = s.entries.modify entry fun e => { e with
    run := some s.runs.length, lastRequested := first, lastServed := none, calls := e.calls + 1,
    lock := e.lock.leave ticket }
  table : t.table = s.table
  launches : t.launches = s.launches ++ [s.runs.length]
  jobs : t.skeleton.jobs = s.skeleton.jobs ++ [job]
  destroyed : t.skeleton.destroyed = (s.skeleton.discard (s.skeleton.bound? entry)).destroyed ++ [false]

theorem Skeleton.lt_of_alive {k : Skeleton} {run : Nat} (alive : k.isDestroyed run = false) : run < k.destroyed.length := by
  by_contra outside
  simp [isDestroyed,List.getElem?_eq_none (Nat.le_of_not_lt outside)] at alive

namespace Acquire

variable {policy : Policy} {clock : Clock} {demand : Demand} {s : State} {entry : Nat}

/-- A request that starts a run, and is not disturbed, binds it and destroys the one that was bound. -/
theorem alone_starting (ticket : Nat) (launches : s.Launches)
    (alive : ∀ run, s.skeleton.bound? entry = some run → s.skeleton.isDestroyed run = false) :
    ∃ t, Turn.Alone (turns policy clock demand) (.starting entry ticket .begin) s t
        (.ok ⟨entry,some s.runs.length,none⟩) ∧
      s.Restarted entry ticket (Acquire.index demand)
        ((order demand entry (Acquire.index demand)).job policy s.runs.length) t := by
  let ordered := order demand entry (Acquire.index demand)
  have ready : (s.remade policy ordered).Launches := ⟨launches.root,launches.directory,launches.process⟩
  obtain ⟨u,launched,more⟩ := State.launch_of_launches ready s.runs.length
  have replaced : (s.entries[entry]?).bind (·.run) = s.skeleton.bound? entry := (s.bound?_skeleton entry).symm
  let started : Started := ⟨s.skeleton.bound? entry,.ok s.runs.length⟩
  let t := ((u.bindRun entry s.runs.length ordered.first).unlock entry ticket).replace started
  have part : ∀ phase s, turns policy clock demand (.starting entry ticket phase) s =
      (Start.turn policy ordered phase s).within (.starting entry ticket) (settle clock entry ticket) :=
    fun _ _ => rfl
  have alone : Turn.Alone (turns policy clock demand) (.starting entry ticket .begin) s t
      (.ok ⟨entry,some s.runs.length,none⟩) := by
    refine (Start.alone ordered launches launched).within part ?_
    simp only [settle,t,started,ordered,order,replaced]
  have beside := ((u.bindRun entry s.runs.length ordered.first).unlock entry ticket).beside_replace started
  have skeleton : t.skeleton = (Skeleton.onLock { (s.remade policy ordered).skeleton.bind entry (some s.runs.length) with
      owners := (u.owners.filter (·.1 != s.runs.length)) ++ [(s.runs.length,entry)] } entry
        (·.leave ticket)).discard (s.skeleton.bound? entry) := by
    simp only [t,started,State.skeleton_replace,State.skeleton_unlock,State.skeleton_bindRun]
    rw [State.skeleton_launch _ launched]
  refine ⟨t,alone,?_,?_,?_,?_,?_⟩
  · have entries : u.entries = (s.remade policy ordered).entries := State.entries_launch _ launched
    have at_entry : ordered.entry = entry := rfl
    rw [beside.entries]
    simp only [State.unlock,State.bindRun,State.onEntry,entries,State.remade,State.unbindRun,at_entry,
      List.modify_modify_eq]
    rfl
  · have same : t.skeleton.table = s.skeleton.table := by
      rw [skeleton,State.skeleton_remade]
      cases s.skeleton.bound? entry <;> cases s.skeleton.bound? ordered.entry <;> rfl
    exact same
  · rw [beside.launches]
    exact more
  · rw [skeleton,State.skeleton_remade]
    cases s.skeleton.bound? entry <;> cases s.skeleton.bound? ordered.entry <;> rfl
  · have destroyed : t.skeleton.destroyed =
        (Skeleton.discard { s.skeleton with destroyed := s.skeleton.destroyed ++ [false] }
          (s.skeleton.bound? entry)).destroyed := by
      rw [skeleton,State.skeleton_remade]
      cases s.skeleton.bound? entry <;> cases s.skeleton.bound? ordered.entry <;> rfl
    rw [destroyed]
    cases old : s.skeleton.bound? entry with
    | none => rfl
    | some gone => exact List.set_append_left _ _ (Skeleton.lt_of_alive (alive gone old))

end Acquire

namespace State.Restarted

variable {s t : State} {entry ticket first : Nat} {job : Encoder.Job}

theorem job_made (restarted : s.Restarted entry ticket first job t) :
    ∃ r, t.runs[s.runs.length]? = some r ∧ r.job = job := by
  refine State.run_of_job ?_
  rw [restarted.jobs,List.getElem?_append_right (by simp [skeleton])]
  simp [skeleton]

theorem boundTo? {key : Key} (restarted : s.Restarted entry ticket first job t) (found : s.find? key = some entry)
    (inside : entry < s.entries.length) : t.boundTo? key = some s.runs.length := by
  have same : t.find? key = some entry := by
    rw [State.find?,restarted.table]
    exact found
  rw [State.boundTo?,same,Option.bind_some,restarted.entries,List.getElem?_modify_eq,List.getElem?_eq_getElem inside]
  rfl

theorem isDestroyed_made (restarted : s.Restarted entry ticket first job t) : t.isDestroyed s.runs.length = false := by
  have counted : (s.skeleton.discard (s.skeleton.bound? entry)).destroyed.length = s.runs.length := by
    cases s.skeleton.bound? entry <;> simp [Skeleton.discard,skeleton]
  rw [isDestroyed_skeleton,Skeleton.isDestroyed,restarted.destroyed,List.getElem?_append_right counted.le,counted]
  simp

/-- Of the runs that there were, the one that was bound is destroyed. -/
theorem isDestroyed_of_lt (restarted : s.Restarted entry ticket first job t) {other : Nat} (old : other < s.runs.length) :
    t.isDestroyed other = (s.skeleton.bound? entry == some other || s.isDestroyed other) := by
  have counted : other < (s.skeleton.discard (s.skeleton.bound? entry)).destroyed.length := by
    cases s.skeleton.bound? entry <;> simpa [Skeleton.discard,skeleton] using old
  rw [isDestroyed_skeleton,isDestroyed_skeleton,Skeleton.isDestroyed,restarted.destroyed,List.getElem?_append_left counted]
  cases s.skeleton.bound? entry with
  | none => rfl
  | some run => exact s.skeleton.isDestroyed_discard run other

end State.Restarted

namespace Acquire

variable {policy : Policy} {clock : Clock} {demand : Demand} {s : State} {entry : Nat}

/-! ### Coming to the lock -/

/-- An entry that is held once more and whose lock is asked for. -/
theorem entry_approached {e : Entry} (found : s.entries[entry]? = some e) : ((s.hold entry).askLock entry).entries[entry]? =
    some { e with references := e.references + 1, lock := e.lock.request } := by
  simp [State.askLock,State.hold,State.onEntry,found]

theorem nextTicket_hold {e : Entry} (found : s.entries[entry]? = some e) :
    (s.hold entry).nextTicket entry = e.lock.next := by
  simp [State.nextTicket,State.hold,State.onEntry,found]

/-- An entry whose lock is free, when somebody comes to it. -/
theorem locked_of_free {e : Entry} (found : s.entries[entry]? = some e) (free : e.lock.isFree = true) :
    ((s.hold entry).askLock entry).locked? entry ((s.hold entry).nextTicket entry) =
      some { e with references := e.references + 1, lock := e.lock.request } := by
  have queue : e.lock.queue = [] := List.isEmpty_iff.mp free
  rw [State.locked?,entry_approached found,nextTicket_hold found]
  simp [Lock.isHeldBy,Lock.request,queue]

/-- The entry that a request finds for its key, or makes, when nobody is there. -/
structure Enters (s : State) (key : Key) (t : State) (entry : Nat) (e : Entry) : Prop where
  here : t.entries[entry]? = some e
  free : e.lock.isFree = true
  listed : e.isRetired = false
  found : t.find? key = some entry
  runs : s.SameRuns t
  run : e.run = s.boundTo? key
  serves : ∀ policy index, e.Serves policy t index ↔ s.Serves policy key index

theorem enters_of_open (clock : Clock) {key : Key} (vacant : s.IsOpen key)
    (known : ∀ entry, s.find? key = some entry → entry < s.entries.length) :
    ∃ e, Enters s key (enter clock key s).1 (enter clock key s).2 e := by
  unfold enter
  cases found : s.find? key with
  | some entry =>
    obtain ⟨e,here⟩ : ∃ e, s.entries[entry]? = some e := ⟨_,List.getElem?_eq_getElem (known entry found)⟩
    obtain ⟨free,listed⟩ := vacant entry e found here
    refine ⟨e,here,free,listed,found,⟨rfl,rfl,rfl,rfl,rfl,rfl,rfl⟩,?_,fun policy index => ⟨?_,?_⟩⟩
    · rw [State.boundTo?,found,Option.bind_some,here]
      rfl
    · intro serves
      exact ⟨entry,_,found,here,serves⟩
    · rintro ⟨entry',e',found',here',serves⟩
      cases found.symm.trans found'
      cases here.symm.trans here'
      exact serves
  | none =>
    refine ⟨{ lastAccess := clock.nanos },by simp,rfl,rfl,?_,⟨rfl,rfl,rfl,rfl,rfl,rfl,rfl⟩,?_,fun policy index => ⟨?_,?_⟩⟩
    · have missing : s.table.find? (·.1 == key) = none := by simpa [State.find?] using found
      simp [State.find?,List.find?_append,missing]
    · rw [State.boundTo?,found]
      rfl
    · rintro ⟨run,r,bound,_⟩
      cases bound
    · rintro ⟨entry',e',found',_⟩
      cases found.symm.trans found'

/-- What a request sees that has come to the lock of the entry of its key when nobody was there. -/
structure Arrives (s : State) (key : Key) (t : State) (entry ticket : Nat) (e : Entry) : Prop where
  locked : t.locked? entry ticket = some e
  listed : e.isRetired = false
  found : t.find? key = some entry
  runs : s.SameRuns t
  run : e.run = s.boundTo? key
  serves : ∀ policy index, e.Serves policy t index ↔ s.Serves policy key index

theorem arrives_of_open (policy : Policy) (clock : Clock) {demand : Demand} (vacant : s.IsOpen demand.key)
    (known : ∀ entry, s.find? demand.key = some entry → entry < s.entries.length) :
    ∃ t entry ticket e, (∀ u r, Turn.Alone (turns policy clock demand) (.locking entry ticket) t u r →
        Turn.Alone (turns policy clock demand) .lookup s u r) ∧ Arrives s demand.key t entry ticket e := by
  obtain ⟨e,enters⟩ := enters_of_open clock vacant known
  obtain ⟨runs,processes,launches,script,root,directory,removal⟩ := enters.runs
  exact ⟨_,_,_,_,fun _ _ rest => .goesOn rfl (.goesOn rfl rest),{
    locked := locked_of_free enters.here enters.free
    listed := enters.listed
    found := enters.found
    runs := ⟨runs,processes,launches,script,root,directory,removal⟩
    run := enters.run
    serves := enters.serves }⟩

theorem Arrives.here {key : Key} {t : State} {ticket : Nat} {e : Entry} (arrives : Arrives s key t entry ticket e) :
    t.entries[entry]? = some e := (Option.filter_eq_some_iff.mp arrives.locked).1

theorem Arrives.bound {key : Key} {t : State} {ticket : Nat} {e : Entry} (arrives : Arrives s key t entry ticket e) :
    t.skeleton.bound? entry = s.boundTo? key := by
  rw [State.bound?_skeleton,arrives.here,Option.bind_some]
  exact arrives.run

/-- A request that has come to the lock of an entry whose run cannot serve it, when runs can be started. -/
theorem Arrives.restarts {demand : Demand} {t : State} {ticket index : Nat} {e : Entry}
    (arrives : Arrives s demand.key t entry ticket e) (alive : ∀ run, e.run = some run → t.isDestroyed run = false)
    (launches : s.Launches) (request : demand.request = .segment index) (serves : ¬ e.Serves policy t index) :
    ∃ u, Turn.Alone (turns policy clock demand) (.locking entry ticket) t u (.ok ⟨entry,some t.runs.length,none⟩) ∧
      t.Restarted entry ticket index ((order demand entry index).job policy t.runs.length) u := by
  have living : ∀ run, t.skeleton.bound? entry = some run → t.skeleton.isDestroyed run = false := by
    intro run at_entry
    rw [← State.isDestroyed_skeleton]
    exact alive run (arrives.run.trans (arrives.bound.symm.trans at_entry))
  obtain ⟨u,starts,restarted⟩ := alone_starting ticket (arrives.runs.launched launches) living
  rw [index_eq request] at restarted
  exact ⟨u,alone_of_not_serves request arrives.locked arrives.listed alive serves starts,restarted⟩

/-- The run that a request has started. -/
theorem Arrives.restarted {key : Key} {t u : State} {ticket first : Nat} {e : Entry} {job : Encoder.Job}
    (arrives : Arrives s key t entry ticket e) (restarted : t.Restarted entry ticket first job u) :
    ∃ r, u.boundTo? key = some t.runs.length ∧ u.runs[t.runs.length]? = some r ∧ r.isDestroyed = false ∧ r.job = job ∧
      u.launches = s.launches ++ [t.runs.length] ∧ s.runs[t.runs.length]? = none := by
  have inside : entry < t.entries.length := (List.getElem?_eq_some_iff.mp arrives.here).1
  obtain ⟨r,here,is_job⟩ := restarted.job_made
  refine ⟨r,restarted.boundTo? arrives.found inside,here,?_,is_job,?_,?_⟩
  · simpa [State.isDestroyed,here] using restarted.isDestroyed_made
  · rw [restarted.launches,arrives.runs.launches]
  · rw [arrives.runs.runs]
    exact List.getElem?_eq_none (Nat.le_refl _)

end Acquire

/-- Nobody is at an entry when no call is on the table. -/
theorem Traffic.IsSound.open_of_quiet {w : Traffic} (sound : w.IsSound) (quiet : w.calls = 0) (key : Key) :
    w.state.IsOpen key := by
  have grips : w.grips = w.grants.map (·.lease.grip) := by simp [Traffic.grips,quiet]
  have idle : ∀ g ∈ w.grips, g.hold = .free := by
    intro g member
    rw [grips] at member
    obtain ⟨grant,_,rfl⟩ := Multiset.mem_map.mp member
    rfl
  intro entry e found here
  constructor
  · have untaken : ∀ ticket, ticket ∉ e.lock.queue := by
      intro ticket member
      have counted := sound.queued.counted entry ticket
      have tickets : ticketsAt w.state.skeleton.locks entry = e.lock.queue := by
        simp [ticketsAt,State.skeleton,here]
      have holder : some (entry,ticket) ∈ (w.grips.map Grip.hold).map Hold.ticket? := by
        rw [← Multiset.count_pos,counted,tickets]
        exact List.count_pos_iff.mpr member
      obtain ⟨h,holds,has⟩ := Multiset.mem_map.mp holder
      obtain ⟨g,grip,rfl⟩ := Multiset.mem_map.mp holds
      rw [idle g grip] at has
      cases has
    exact List.isEmpty_iff.mpr (List.eq_nil_iff_forall_not_mem.mpr untaken)
  · cases retired : e.isRetired with
    | false => rfl
    | true =>
      have gone : w.state.skeleton.isRetired entry = true := by
        simp [Skeleton.isRetired,State.skeleton,here,retired]
      obtain ⟨g,grip,leaves⟩ := sound.leaving key entry (State.mem_of_find? found) gone
      rw [idle g grip] at leaves
      cases leaves

/-- A bound run is not destroyed. -/
theorem Traffic.IsSound.alive_of_bound {w : Traffic} (sound : w.IsSound) {entry run : Nat}
    (bound : w.state.skeleton.bound? entry = some run) : w.state.isDestroyed run = false := by
  have answers := sound.owned run
  have once : 0 < w.state.skeleton.bindings.count (some run) := by
    rw [List.count_pos_iff]
    exact List.mem_of_getElem? (Option.join_eq_some_iff.mp bound)
  rw [State.isDestroyed_skeleton]
  cases gone : w.state.skeleton.isDestroyed run with
  | false => rfl
  | true =>
    rw [gone,Bool.toNat_true] at answers
    omega

/-- The job of a run that the table binds to a key was ordered for a demand of the key. -/
theorem Traffic.job_of_bound {policy : Policy} {conduct : Conduct} {w : Traffic} (sound : w.IsSound)
    (orders : w.IsOrdered policy conduct) {key : Key} {run : Nat} {r : Run}
    (bound : w.state.boundTo? key = some run) (found : w.state.runs[run]? = some r) :
    ∃ demand entry first, conduct.asks demand ∧ demand.key = key ∧
      r.job = (Acquire.order demand entry first).job policy run := by
  rw [State.boundTo?_eq,Option.bind_eq_some_iff] at bound
  obtain ⟨entry,listed,at_entry⟩ := bound
  obtain ⟨key',made,listed'⟩ := sound.listed.bound entry run at_entry
  have same : key' = key := sound.listed.names key' key entry listed' (State.mem_of_find? listed)
  have job : w.state.skeleton.jobs[run]? = some r.job := by simp [State.skeleton,found]
  obtain ⟨demand,entry',first,asks,made',is_job⟩ := orders.ordered run r.job job
  exact ⟨demand,entry',first,asks,(Option.some.inj (made'.symm.trans made)).trans same,is_job⟩

namespace Traffic

variable {policy : Policy} {rendering : Key → Rendering} {w : Traffic} {demand : Demand} {index : Nat} {clock : Clock}

/-- In every history a request comes to the lock of the entry of its key when nobody is there, and the
    run that is bound there is not destroyed. -/
theorem IsSound.arrives (sound : w.IsSound) (policy : Policy) (clock : Clock) (vacant : w.state.IsOpen demand.key) :
    ∃ s entry ticket e,
      (∀ t r, Turn.Alone (Acquire.turns policy clock demand) (.locking entry ticket) s t r →
        Turn.Alone (Acquire.turns policy clock demand) .lookup w.state t r) ∧
      Acquire.Arrives w.state demand.key s entry ticket e ∧ ∀ run, e.run = some run → s.isDestroyed run = false := by
  have known : ∀ entry, w.state.find? demand.key = some entry → entry < w.state.entries.length := by
    intro entry found
    have listed := sound.listed.table _ (State.mem_of_find? found)
    simpa [State.skeleton] using listed
  obtain ⟨s,entry,ticket,e,entered,arrives⟩ := Acquire.arrives_of_open policy clock vacant known
  refine ⟨s,entry,ticket,e,entered,arrives,?_⟩
  intro run at_entry
  have bound : w.state.boundTo? demand.key = some run := arrives.run.symm.trans at_entry
  rw [State.boundTo?_eq,Option.bind_eq_some_iff] at bound
  obtain ⟨_,_,bound⟩ := bound
  rw [arrives.runs.isDestroyed]
  exact sound.alive_of_bound bound

/-- A request whose segment the bound run serves comes to the lock of its entry and goes on using the run. -/
theorem IsSound.reuses (sound : w.IsSound) (clock : Clock) (vacant : w.state.IsOpen demand.key)
    (request : demand.request = .segment index) (serves : w.state.Serves policy demand.key index) :
    ∃ s entry ticket e, Acquire.Arrives w.state demand.key s entry ticket e ∧
      (∀ run, e.run = some run → s.isDestroyed run = false) ∧ e.Serves policy s index ∧
      Turn.Alone (Acquire.turns policy clock demand) .lookup w.state
        ((s.onEntry entry fun e => { e with lastRequested := index }).unlock entry ticket) (.ok ⟨entry,e.run,none⟩) := by
  obtain ⟨s,entry,ticket,e,entered,arrives,alive⟩ := sound.arrives policy clock vacant
  have served := (arrives.serves policy index).mpr serves
  exact ⟨s,entry,ticket,e,arrives,alive,served,
    entered _ _ (Acquire.alone_of_serves request arrives.locked arrives.listed alive served)⟩

/-- A request whose segment the bound run does not serve comes to the lock of its entry and starts a run. -/
theorem IsSound.restarts (sound : w.IsSound) (clock : Clock) (vacant : w.state.IsOpen demand.key)
    (launches : w.state.Launches) (request : demand.request = .segment index)
    (serves : ¬ w.state.Serves policy demand.key index) :
    ∃ s entry ticket e t, Acquire.Arrives w.state demand.key s entry ticket e ∧
      Turn.Alone (Acquire.turns policy clock demand) .lookup w.state t (.ok ⟨entry,some s.runs.length,none⟩) ∧
      s.Restarted entry ticket index ((Acquire.order demand entry index).job policy s.runs.length) t := by
  obtain ⟨s,entry,ticket,e,entered,arrives,alive⟩ := sound.arrives policy clock vacant
  obtain ⟨t,starts,restarted⟩ := arrives.restarts alive launches request fun served =>
    serves ((arrives.serves policy index).mp served)
  exact ⟨s,entry,ticket,e,t,arrives,entered _ _ starts,restarted⟩

/-- A request whose segment the bound run serves. -/
theorem reuses_of_serves (sound : w.IsSound) (orders : w.IsOrdered policy (.withRendering rendering))
    (clock : Clock) (vacant : w.state.IsOpen demand.key) (rendered : demand.rendering = rendering demand.key)
    (request : demand.request = .segment index) (serves : w.state.Serves policy demand.key index) :
    ∃ t lease run r, Turn.Alone (Acquire.turns policy clock demand) .lookup w.state t (.ok lease) ∧
      lease.run = some run ∧ t.boundTo? demand.key = some run ∧ t.runs[run]? = some r ∧ r.isDestroyed = false ∧
      (r.job.first ≤ index ∧ index < r.job.last ∧ r.job.last ≤ demand.rendering.segmentCount) ∧
      t.launches = w.state.launches ∧ w.state.boundTo? demand.key = some run := by
  obtain ⟨s,entry,ticket,e,arrives,alive,⟨run,r,at_entry,found,covers,_⟩,alone⟩ := sound.reuses clock vacant request serves
  have before : w.state.boundTo? demand.key = some run := arrives.run.symm.trans at_entry
  obtain ⟨d,entry',first,asks,same,is_job⟩ := job_of_bound sound orders before (arrives.runs.runs ▸ found)
  have last : r.job.last ≤ demand.rendering.segmentCount := by
    have rendered' : d.rendering = demand.rendering := by
      rw [rendered,← same]
      exact asks
    rw [is_job,← rendered']
    exact (Acquire.order d entry' first).last_le policy
  refine ⟨_,_,run,r,alone,at_entry,?_,found,?_,⟨covers.1,covers.2,last⟩,arrives.runs.launches,before⟩
  · have skeleton : ((s.onEntry entry fun e => { e with lastRequested := index }).unlock entry ticket).skeleton =
        s.skeleton.onLock entry (·.leave ticket) := by
      rw [State.skeleton_unlock,State.skeleton_onEntry] <;> exact fun _ => rfl
    have listed : State.find? ((s.onEntry entry fun e => { e with lastRequested := index }).unlock entry ticket)
        demand.key = some entry := arrives.found
    rw [State.boundTo?_eq,listed,Option.bind_some,skeleton]
    exact arrives.bound.trans before
  · simpa [State.isDestroyed,found] using alive run at_entry

/-- A request whose segment the bound run does not serve. -/
theorem restarts_of_not_serves (sound : w.IsSound) (clock : Clock) (vacant : w.state.IsOpen demand.key)
    (launches : w.state.Launches) (request : demand.request = .segment index)
    (serves : ¬ w.state.Serves policy demand.key index) :
    ∃ t lease run r entry, Turn.Alone (Acquire.turns policy clock demand) .lookup w.state t (.ok lease) ∧
      lease.run = some run ∧ t.boundTo? demand.key = some run ∧ t.runs[run]? = some r ∧ r.isDestroyed = false ∧
      r.job = (Acquire.order demand entry index).job policy run ∧ t.launches = w.state.launches ++ [run] ∧
      w.state.runs[run]? = none ∧ ∀ old, w.state.boundTo? demand.key = some old → t.isDestroyed old = true := by
  obtain ⟨s,entry,ticket,e,t,arrives,alone,restarted⟩ := sound.restarts clock vacant launches request serves
  obtain ⟨r,binds,here,alive,is_job,more,fresh⟩ := arrives.restarted restarted
  refine ⟨t,_,s.runs.length,r,entry,alone,rfl,binds,here,alive,is_job,more,fresh,?_⟩
  intro old before
  have bound := arrives.bound.trans before
  have known : old < s.runs.length := by
    rw [State.boundTo?_eq,Option.bind_eq_some_iff] at before
    obtain ⟨_,_,at_entry⟩ := before
    have alive := Skeleton.lt_of_alive ((State.isDestroyed_skeleton _ _).symm.trans (sound.alive_of_bound at_entry))
    simpa [State.skeleton,arrives.runs.runs] using alive
  rw [restarted.isDestroyed_of_lt known,bound]
  simp

/-- The decision of a request for a segment, in every state that a history of the traffic comes to,
    when nobody is at the entry, players see one rendering for each session, and runs can be started.
    The lease is for a run that covers the segment, is not destroyed and is bound to the session. No
    run is started if and only if the bound run serves the segment; otherwise one run is started at
    the segment, and the run that was bound is destroyed. -/
theorem acquire_reuses_or_restarts (reached : w.Reachable policy (.withRendering rendering))
    (vacant : w.state.IsOpen demand.key) (launches : w.state.Launches)
    (rendered : demand.rendering = rendering demand.key) (request : demand.request = .segment index)
    (inside : index < demand.rendering.segmentCount) (counted : demand.rendering.segmentCount ≤ max32)
    (copies : 1 ≤ policy.maxCopySegments) :
    ∃ t lease run r, Turn.Alone (Acquire.turns policy clock demand) .lookup w.state t (.ok lease) ∧
      lease.run = some run ∧ t.boundTo? demand.key = some run ∧ t.runs[run]? = some r ∧ r.isDestroyed = false ∧
      (r.job.first ≤ index ∧ index < r.job.last ∧ r.job.last ≤ demand.rendering.segmentCount) ∧
      (t.launches = w.state.launches ↔ w.state.Serves policy demand.key index) ∧
      (w.state.Serves policy demand.key index → w.state.boundTo? demand.key = some run) ∧
      (¬ w.state.Serves policy demand.key index →
        t.launches = w.state.launches ++ [run] ∧ w.state.runs[run]? = none ∧ r.job.first = index ∧
        r.job.last = (if demand.rendering.representation.isCopy
          then min (index + policy.maxCopySegments) demand.rendering.segmentCount
          else demand.rendering.segmentCount) ∧
        ∀ old, w.state.boundTo? demand.key = some old → t.isDestroyed old = true) := by
  have sound := sound_of_reachable reached
  have orders := ordered_of_reachable reached
  by_cases serves : w.state.Serves policy demand.key index
  · obtain ⟨t,lease,run,r,alone,leased,binds,here,alive,covers,same,before⟩ :=
      reuses_of_serves sound orders clock vacant rendered request serves
    exact ⟨t,lease,run,r,alone,leased,binds,here,alive,covers,⟨fun _ => serves,fun _ => same⟩,fun _ => before,
      fun refused => absurd serves refused⟩
  · obtain ⟨t,lease,run,r,entry,alone,leased,binds,here,alive,is_job,more,fresh,gone⟩ :=
      restarts_of_not_serves sound clock vacant launches request serves
    have last : r.job.last = (Acquire.order demand entry index).last policy := by rw [is_job]; rfl
    have first : r.job.first = index := by rw [is_job]; rfl
    have past : index < r.job.last := by
      rw [last,Order.last_eq counted]
      split
      · simp only [Acquire.order]
        omega
      · exact inside
    have new : t.launches ≠ w.state.launches := by
      rw [more]
      simp
    refine ⟨t,lease,run,r,alone,leased,binds,here,alive,⟨first.le,past,?_⟩,⟨fun same => absurd same new,
      fun serves' => absurd serves' serves⟩,fun serves' => absurd serves' serves,fun _ => ⟨more,fresh,first,?_,gone⟩⟩
    · rw [last]
      exact Order.last_le _ policy
    · rw [last]
      exact Order.last_eq counted

/-- A request for a segment of the film in ten segments. -/
def requestOfTen (index : Nat) : Demand :=
  { firstRequest with
    request := .segment index
    rendering := { firstRequest.rendering with starts := [0,1,2,3,4,5,6,7,8,9] } }

/-- The first request, served turn by turn. Its run serves segments that are near, and none far away. -/
theorem exists_first_request_served :
    ∃ w : Traffic, w.Reachable (.ofConfig {}) (.withRendering fun _ => (requestOfTen 0).rendering) ∧
      w.state.boundTo? (requestOfTen 0).key = some 0 ∧ w.state.launches = [0] ∧ w.calls = 0 ∧ w.state.Launches ∧
      w.state.Serves (.ofConfig {}) (requestOfTen 0).key 3 ∧
      ¬ w.state.Serves (.ofConfig {}) (requestOfTen 0).key 8 := by
  have asked : Reachable (.ofConfig {}) (.withRendering fun _ => (requestOfTen 0).rendering) _ :=
    .tail .refl (.ask (requestOfTen 0) rfl)
  have found := asked.tail (.goesOn _ 0 rfl rfl)
  have entered := found.tail (.goesOn _ 0 rfl rfl)
  have inside := entered.tail (.goesOn _ 0 rfl rfl)
  have unbound := inside.tail (.goesOn _ 0 rfl rfl)
  have rooted := unbound.tail (.goesOn _ 0 rfl rfl)
  have made := rooted.tail (.goesOn _ 0 rfl rfl)
  have served := made.tail (.ends _ 0 rfl rfl)
  refine ⟨_,served,rfl,rfl,rfl,⟨rfl,rfl,rfl⟩,?_,?_⟩
  · exact ⟨0,_,rfl,rfl,0,_,rfl,rfl,⟨by decide,by decide⟩,⟨by decide,by decide⟩,.inl rfl⟩
  · rintro ⟨entry,e,found,here,_,_,_,_,_,⟨_,window⟩,_⟩
    cases found
    cases here
    exact absurd window (by decide)

/-- The first request starts a run. The run serves a request for a segment near by; a request for one far away starts
    another run there, and the first one is destroyed. -/
theorem near_request_reuses_far_request_restarts :
    (∃ t lease run r, Turn.Alone (Acquire.turns (.ofConfig {}) ⟨0,0⟩ (requestOfTen 0)) .lookup {} t (.ok lease) ∧
      lease.run = some run ∧ t.boundTo? (requestOfTen 0).key = some run ∧ t.runs[run]? = some r ∧ t.launches = [run] ∧
      r.job.first = 0 ∧ r.job.last = 10) ∧
    ∃ w : Traffic, w.Reachable (.ofConfig {}) (.withRendering fun _ => (requestOfTen 0).rendering) ∧
      w.state.boundTo? (requestOfTen 0).key = some 0 ∧ w.state.launches = [0] ∧
      (∃ t lease, Turn.Alone (Acquire.turns (.ofConfig {}) ⟨0,0⟩ (requestOfTen 3)) .lookup w.state t (.ok lease) ∧
        lease.run = some 0 ∧ t.launches = [0]) ∧
      ∃ t lease run r, Turn.Alone (Acquire.turns (.ofConfig {}) ⟨0,0⟩ (requestOfTen 8)) .lookup w.state t (.ok lease) ∧
        lease.run = some run ∧ t.launches = [0,run] ∧ t.runs[run]? = some r ∧ r.job.first = 8 ∧ r.job.last = 10 ∧
        t.isDestroyed 0 = true := by
  constructor
  · have reached : Reachable (.ofConfig {}) (.withRendering fun _ => (requestOfTen 0).rendering) {} := .refl
    have vacant : State.IsOpen {} (requestOfTen 0).key := by
      intro entry e found
      cases found
    have idle : ¬ State.Serves {} (.ofConfig {}) (requestOfTen 0).key 0 := by
      rintro ⟨entry,e,found,_⟩
      cases found
    obtain ⟨t,lease,run,r,alone,leased,bound,here,_,_,_,_,starts⟩ := acquire_reuses_or_restarts reached vacant
      ⟨rfl,rfl,rfl⟩ rfl rfl (by decide) (by decide) (by decide)
    obtain ⟨more,_,first,last,_⟩ := starts idle
    exact ⟨t,lease,run,r,alone,leased,bound,here,more,first,last⟩
  · obtain ⟨w,reached,bound,launched,quiet,launches,near,far⟩ := exists_first_request_served
    have vacant := (sound_of_reachable reached).open_of_quiet quiet
    refine ⟨w,reached,bound,launched,?_,?_⟩
    · obtain ⟨t,lease,run,r,alone,leased,_,_,_,_,kept,reuses,_⟩ :=
        acquire_reuses_or_restarts reached (vacant (requestOfTen 3).key) launches rfl rfl (by decide) (by decide) (by decide)
      have same : run = 0 := Option.some.inj ((reuses near).symm.trans bound)
      exact ⟨t,lease,alone,same ▸ leased,(kept.mpr near).trans launched⟩
    · obtain ⟨t,lease,run,r,alone,leased,_,here,_,_,_,_,starts⟩ :=
        acquire_reuses_or_restarts reached (vacant (requestOfTen 8).key) launches rfl rfl (by decide) (by decide) (by decide)
      obtain ⟨more,_,first,last,gone⟩ := starts far
      rw [launched] at more
      exact ⟨t,lease,run,r,alone,leased,more,here,first,last,gone 0 bound⟩

end Traffic
end Playout.Playback
