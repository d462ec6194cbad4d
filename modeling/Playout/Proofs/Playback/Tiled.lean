import Playout.Proofs.Playback.Exited
import Playout.Proofs.Playback.Starting

/-!
Runs that lie end to end. The runs that are launched for a player who asks for one
segment after another are `Tiled`: each goes as far as a run may go, the next one begins
where it ends, and only the last one is not destroyed. Every turn of the request for the
next segment keeps this (`Acquire.turn_tiles`), and it is given the run that covers it.
-/
namespace Playout.Playback

/-- The demand of the same player for a segment. -/
def Demand.forSegment (d : Demand) (index : Nat) : Demand := { d with request := .segment index }

/-! ### Runs end to end -/

/-- Segments cut into runs of one length, from a first segment on. -/
structure Tiling where
  first : Nat
  length : Nat
  count : Nat

namespace Tiling

/-- The first segment of a run, the runs being counted from zero. -/
def start (g : Tiling) (k : Nat) : Nat := g.first + k * g.length

/-- The segment after the last of a run. -/
def stop (g : Tiling) (k : Nat) : Nat := min (g.start (k + 1)) g.count

theorem start_succ (g : Tiling) (k : Nat) : g.start (k + 1) = g.start k + g.length := by
  simp only [start,Nat.add_one_mul,Nat.add_assoc]

end Tiling

/-- The runs of a player that asks for the segments of a rendering from one on. -/
def Demand.tiling (policy : Policy) (d : Demand) (first : Nat) : Tiling where
  first := first
  length := if d.rendering.representation.isCopy then policy.maxCopySegments else d.rendering.segmentCount
  count := d.rendering.segmentCount

/-- The runs that were launched for the segments before one lie end to end, and all but the last are destroyed. -/
structure Tiled (g : Tiling) (earlier runs : List Nat) (next : Nat) (s : State) : Prop where
  launches : s.launches = earlier ++ runs
  onward : g.first ≤ next
  reaches : next ≤ g.start runs.length
  needed : ∀ k, runs.length = k + 1 → g.start k < next
  jobs : ∀ k run, runs[k]? = some run →
    ∃ job, s.skeleton.jobs[run]? = some job ∧ job.first = g.start k ∧ job.last = g.stop k
  alive : ∀ k run, runs[k]? = some run → s.skeleton.isDestroyed run = decide (k + 1 < runs.length)

namespace Tiled

variable {g : Tiling} {earlier runs : List Nat} {next run : Nat} {s t : State}

theorem same (tiled : Tiled g earlier runs next s) (launches : t.launches = s.launches)
    (jobs : t.skeleton.jobs = s.skeleton.jobs) (destroyed : t.skeleton.destroyed = s.skeleton.destroyed) :
    Tiled g earlier runs next t where
  launches := launches.trans tiled.launches
  onward := tiled.onward
  reaches := tiled.reaches
  needed := tiled.needed
  jobs := jobs ▸ tiled.jobs
  alive k run at_k := by
    rw [Skeleton.isDestroyed,destroyed]
    exact tiled.alive k run at_k

/-- The last run serves one more segment. -/
theorem advance (tiled : Tiled g earlier runs next s) (inside : next < g.start runs.length) :
    Tiled g earlier runs (next + 1) s where
  launches := tiled.launches
  onward := tiled.onward.trans (Nat.le_succ next)
  reaches := inside
  needed k last := Nat.lt_succ_of_lt (tiled.needed k last)
  jobs := tiled.jobs
  alive := tiled.alive

theorem lt (tiled : Tiled g earlier runs next s) {k : Nat} (at_k : runs[k]? = some run) : run < s.runs.length := by
  obtain ⟨job,ordered,_⟩ := tiled.jobs k run at_k
  simpa [State.skeleton] using (List.getElem?_eq_some_iff.mp ordered).1

theorem last (tiled : Tiled g earlier runs next s) (is_last : runs.getLast? = some run) :
    ∃ k r, runs.length = k + 1 ∧ s.runs[run]? = some r ∧ r.job.first = g.start k ∧ r.job.last = g.stop k ∧
      s.isDestroyed run = false := by
  obtain ⟨rest,rfl⟩ := List.getLast?_eq_some_iff.mp is_last
  have at_end : (rest ++ [run])[rest.length]? = some run := List.getElem?_concat_length
  obtain ⟨job,ordered,first,last⟩ := tiled.jobs rest.length run at_end
  obtain ⟨r,found,rfl⟩ := State.run_of_job ordered
  refine ⟨rest.length,r,by simp,found,first,last,?_⟩
  rw [State.isDestroyed_skeleton,tiled.alive rest.length run at_end]
  simp

/-- One more run begins where the last one ends, and the last one is destroyed. -/
theorem extend (tiled : Tiled g earlier runs next s) (at_end : next = g.start runs.length) (proper : 1 ≤ g.length)
    {policy : Policy} {o : Order} (launched : State.Launched policy s o runs.getLast? run t) (first : o.first = next)
    (last : o.last policy = min (next + g.length) g.count) : Tiled g earlier (runs ++ [run]) (next + 1) t where
  launches := by rw [launched.launches,tiled.launches,List.append_assoc]
  onward := tiled.onward.trans (Nat.le_succ next)
  reaches := by
    rw [List.length_append,List.length_singleton,g.start_succ,← at_end]
    omega
  needed k counted := by
    have here : k = runs.length := by simpa using counted.symm
    rw [here,← at_end]
    exact Nat.lt_succ_self next
  jobs k other at_k := by
    rw [launched.jobs]
    rw [List.getElem?_append] at at_k
    split at at_k
    · exact tiled.jobs k other at_k
    · rename_i outside
      rw [List.getElem?_singleton] at at_k
      split at at_k
      · have here : k = runs.length := by omega
        cases at_k
        exact ⟨_,launched.made,by rw [← here] at at_end; exact first.trans at_end,
          by rw [Tiling.stop,g.start_succ,here,← at_end]; exact last⟩
      · cases at_k
  alive k other at_k := by
    have discards (other : Nat) : (s.skeleton.discard runs.getLast?).isDestroyed other =
        (runs.getLast? == some other || s.skeleton.isDestroyed other) := by
      cases runs.getLast? with
      | none => rfl
      | some run => exact s.skeleton.isDestroyed_discard run other
    rw [Skeleton.isDestroyed,launched.destroyed,List.length_append,List.length_singleton,← Skeleton.isDestroyed,discards]
    rw [List.getElem?_append] at at_k
    split at at_k
    · rename_i inside
      rw [tiled.alive k other at_k]
      by_cases is_last : k + 1 = runs.length
      · have found : runs.getLast? = some other := by
          rw [List.getLast?_eq_getElem?,← is_last]
          exact at_k
        simp [found,inside]
      · have later : k + 1 < runs.length := by omega
        simp [later,inside]
    · rename_i outside
      rw [List.getElem?_singleton] at at_k
      split at at_k
      · have here : k = runs.length := by omega
        cases at_k
        simp [here,launched.alive,launched.other]
      · cases at_k

/-- Runs are made that are not launched yet. -/
theorem grow (tiled : Tiled g earlier runs next s) (grows : s.Grows t) : Tiled g earlier runs next t where
  launches := grows.launches.trans tiled.launches
  onward := tiled.onward
  reaches := tiled.reaches
  needed := tiled.needed
  jobs k run at_k := by
    obtain ⟨job,ordered,range⟩ := tiled.jobs k run at_k
    exact ⟨job,getElem?_of_grows grows.jobs ordered,range⟩
  alive k run at_k := by
    rw [grows.isDestroyed (tiled.lt at_k)]
    exact tiled.alive k run at_k

/-- So many runs were launched as are needed for the segments. -/
theorem length_eq (tiled : Tiled g earlier runs next s) (proper : 1 ≤ g.length) :
    runs.length = (next - g.first + g.length - 1) / g.length := by
  have onward := tiled.onward
  have reaches := tiled.reaches
  simp only [Tiling.start] at reaches
  refine (Nat.div_eq_of_lt_le ?_ ?_).symm
  · cases counted : runs.length with
    | zero => simp
    | succ k =>
      have needed := tiled.needed k counted
      rw [Tiling.start] at needed
      rw [Nat.add_one_mul]
      omega
  · rw [Nat.add_one_mul]
    omega

theorem isDestroyed_iff (tiled : Tiled g earlier runs next s) (member : run ∈ runs) :
    s.isDestroyed run = false ↔ runs.getLast? = some run := by
  obtain ⟨k,at_k⟩ := List.mem_iff_getElem?.mp member
  have inside := (List.getElem?_eq_some_iff.mp at_k).1
  rw [State.isDestroyed_skeleton,tiled.alive k run at_k,decide_eq_false_iff_not]
  constructor
  · intro last
    have here : runs.length - 1 = k := by omega
    rw [List.getLast?_eq_getElem?,here]
    exact at_k
  · intro is_last later
    obtain ⟨k',r,counted,_,_,_,alive⟩ := tiled.last is_last
    rw [State.isDestroyed_skeleton,tiled.alive k run at_k] at alive
    simp [later] at alive

end Tiled

/-! ### Where a request stands -/

/-- Whether a note is that of a player who has asked for the segments before one. -/
structure Note.Plays (n : Note) (runs : List Nat) (next : Nat) : Prop where
  run : n.run = runs.getLast?
  requested : runs ≠ [] → n.requested + 1 = next

/-- What is known at a phase of the request for the next segment, or when no request is under way. -/
def Acquire.Stands (policy : Policy) (d : Demand) (g : Tiling) (runs : List Nat) (next : Nat) (s : State) :
    Option Acquire → Prop
  | none | some lookup => (s.noteOf d.key).Plays runs next
  | some (approaching entry) | some (locking entry _) => s.find? d.key = some entry ∧ (s.noteAt entry).Plays runs next
  | some (listing entry _ run) => s.find? d.key = some entry ∧ (s.noteAt entry).Plays runs next ∧
      runs.getLast? = some run ∧ next < g.start runs.length ∧ s.hasExited run = true
  | some (listed entry _ run holds) => s.find? d.key = some entry ∧ (s.noteAt entry).Plays runs next ∧
      runs.getLast? = some run ∧ next < g.start runs.length ∧ holds = true
  | some (starting entry _ phase) => s.find? d.key = some entry ∧ next = g.start runs.length ∧
      phase.Stands policy (order (d.forSegment next) entry next) runs.getLast? s
  | some retrying => False

section same
variable {policy : Policy} {d : Demand} {g : Tiling} {runs : List Nat} {next : Nat} {s t : State}

theorem Note.Plays.same {n n' : Note} (plays : n.Plays runs next) (run : n'.run = n.run)
    (requested : n'.requested = n.requested) : n'.Plays runs next where
  run := run.trans plays.run
  requested some := by
    rw [requested]
    exact plays.requested some

theorem State.SameSessions.plays {entry : Nat} (same : s.SameSessions t) (plays : (s.noteAt entry).Plays runs next) :
    (t.noteAt entry).Plays runs next := plays.same (same.run entry) (same.requested entry)

/-- A request stands where it stood while nothing becomes of the sessions. -/
theorem Acquire.Stands.same {request : Option Acquire} (stands : Stands policy d g runs next s request)
    (same : s.SameSessions t) : Stands policy d g runs next t request := by
  have find := same.find? d.key
  have idle (plays : (s.noteOf d.key).Plays runs next) : (t.noteOf d.key).Plays runs next :=
    plays.same (same.noteOf d.key).1 (same.noteOf d.key).2
  cases request with
  | none => exact idle stands
  | some phase =>
    cases phase with
    | lookup => exact idle stands
    | approaching entry => exact ⟨find.trans stands.1,same.plays stands.2⟩
    | locking entry ticket => exact ⟨find.trans stands.1,same.plays stands.2⟩
    | retrying => exact stands
    | listing entry ticket run =>
      obtain ⟨found,plays,is_last,inside,exited⟩ := stands
      exact ⟨find.trans found,same.plays plays,is_last,inside,same.exited run exited⟩
    | listed entry ticket run holds =>
      obtain ⟨found,plays,rest⟩ := stands
      exact ⟨find.trans found,same.plays plays,rest⟩
    | starting entry ticket phase =>
      obtain ⟨found,at_end,start⟩ := stands
      exact ⟨find.trans found,at_end,start.same same⟩

end same

/-! ### The turns of a request -/

/-- Runs can be started, and the one that is bound to a key has written all its segments if it has exited. -/
structure State.IsReliable (s : State) (key : Key) : Prop where
  launches : s.Launches
  written : ∀ run r, s.boundTo? key = some run → s.runs[run]? = some r → s.hasExited run = true →
    ∀ index, r.job.first ≤ index → index < r.job.last → s.HasWritten run index

theorem State.IsReliable.of_working {s : State} {key : Key} (launches : s.Launches)
    (working : ∀ run, s.boundTo? key = some run → s.hasExited run = false) : s.IsReliable key where
  launches := launches
  written run _ bound _ exited := by cases (working run bound).symm.trans exited

namespace Acquire

variable {policy : Policy} {clock : Clock} {d : Demand} {first next : Nat} {earlier runs : List Nat} {s : State}

/-- The job of a run that is ordered for a segment. -/
theorem last_forSegment (counted : d.rendering.segmentCount ≤ max32) (entry : Nat) :
    (order (d.forSegment next) entry next).last policy =
      min (next + (d.tiling policy first).length) (d.tiling policy first).count := by
  have last : (order (d.forSegment next) entry next).last policy =
      if d.rendering.representation.isCopy then min (next + policy.maxCopySegments) d.rendering.segmentCount
      else d.rendering.segmentCount := Order.last_eq counted
  rw [last,Demand.tiling]
  by_cases copies : d.rendering.representation.isCopy = true
  · simp only [if_pos copies]
  · simp only [if_neg copies]
    exact (Nat.min_eq_right (Nat.le_add_left _ _)).symm

/-- What a request for the next segment comes to: a lease of the run that covers it. -/
def Obtains (d : Demand) (g : Tiling) (earlier runs : List Nat) (next : Nat) (t : State) (r : Result Lease) : Prop :=
  ∃ entry run runs', r = .ok ⟨entry,some run,none⟩ ∧ runs <+: runs' ∧ runs'.getLast? = some run ∧
    Tiled g earlier runs' (next + 1) t ∧ (t.noteOf d.key).Plays runs' (next + 1)

/-- The bound run goes on being used. -/
theorem obtains_reused {entry ticket run : Nat} {g : Tiling} (inside : entry < s.skeleton.locks.length)
    (tiled : Tiled g earlier runs next s) (found : s.find? d.key = some entry) (plays : (s.noteAt entry).Plays runs next)
    (is_last : runs.getLast? = some run) (covers : next < g.start runs.length) :
    Obtains d g earlier runs next (s.reused entry ticket next) (.ok ⟨entry,some run,none⟩) := by
  have skeleton := s.skeleton_reused entry ticket next
  refine ⟨entry,run,runs,rfl,List.prefix_refl _,is_last,?_,?_⟩
  · exact (tiled.advance covers).same rfl (by rw [skeleton]; rfl) (by rw [skeleton]; rfl)
  · obtain ⟨e,here⟩ := s.entry_of_given inside
    have found' : (s.reused entry ticket next).find? d.key = some entry := found
    have note : (s.reused entry ticket next).noteAt entry = { s.noteAt entry with requested := next } := by
      rw [State.reused,State.noteAt_unlock,State.noteAt_of_found here]
      refine State.noteAt_of_found (e := { e with lastRequested := next }) ?_
      rw [State.onEntry,List.getElem?_modify_eq,here]
      rfl
    rw [State.noteOf_of_found found',note]
    exact ⟨plays.run,fun _ => rfl⟩

/-- A request for the next segment that has come to the lock. -/
theorem decide_tiles {entry ticket : Nat} {e : Entry} (locked : s.locked? entry ticket = some e)
    (listed : e.isRetired = false) (counted : d.rendering.segmentCount ≤ max32) (window : 1 ≤ policy.reuseWindow)
    (segment : next < d.rendering.segmentCount) (tiled : Tiled (d.tiling policy first) earlier runs next s)
    (found : s.find? d.key = some entry) (plays : (s.noteAt entry).Plays runs next) :
    (decide policy clock (d.forSegment next) s entry ticket e).Leads
      (fun t next' => Tiled (d.tiling policy first) earlier runs next t ∧
        Stands policy d (d.tiling policy first) runs next t (some next'))
      (Obtains d (d.tiling policy first) earlier runs next) := by
  have here : s.entries[entry]? = some e := (Option.filter_eq_some_iff.mp locked).1
  have inside : entry < s.skeleton.locks.length := by
    simpa [State.skeleton] using (List.getElem?_eq_some_iff.mp here).1
  have noted := State.noteAt_of_found here
  have bound : e.run = runs.getLast? := by
    have run := plays.run
    rwa [noted] at run
  cases is_last : runs.getLast? with
  | none =>
    have empty : runs = [] := List.getLast?_eq_none_iff.mp is_last
    have at_end : next = (d.tiling policy first).start runs.length :=
      Nat.le_antisymm tiled.reaches (by simpa [empty,Tiling.start] using tiled.onward)
    rw [is_last] at bound
    simp only [decide,listed,Demand.forSegment,bound]
    exact ⟨tiled,found,at_end,plays.run⟩
  | some run =>
    rw [is_last] at bound
    obtain ⟨k,r,length,at_run,from_k,to_k,alive⟩ := tiled.last is_last
    have asked : e.lastRequested + 1 = next := by
      have requested := plays.requested (by rintro rfl; cases is_last)
      rwa [noted] at requested
    have limit : (d.tiling policy first).stop k = min ((d.tiling policy first).start runs.length) d.rendering.segmentCount := by
      rw [length]
      rfl
    have suited : suits policy s e run next = true ↔ next < (d.tiling policy first).start runs.length := by
      rw [suits_eq at_run alive,from_k,to_k,limit]
      have needed := tiled.needed k length
      omega
    simp only [decide,listed,Demand.forSegment,bound]
    by_cases covers : next < (d.tiling policy first).start runs.length
    · rw [if_pos (suited.mpr covers)]
      cases exited : s.hasExited run with
      | true => exact ⟨tiled,found,plays,is_last,covers,exited⟩
      | false => exact obtains_reused inside tiled found plays is_last covers
    · have refused : suits policy s e run next = false := Bool.eq_false_iff.mpr fun suits => covers (suited.mp suits)
      rw [refused]
      exact ⟨tiled,found,Nat.le_antisymm tiled.reaches (Nat.le_of_not_lt covers),plays.run⟩

/-- A turn of the request for the next segment brings it on, or it is given the run that covers the segment. -/
theorem turn_tiles (phase : Acquire) (counted : d.rendering.segmentCount ≤ max32) (copies : 1 ≤ policy.maxCopySegments)
    (window : 1 ≤ policy.reuseWindow) (segment : next < d.rendering.segmentCount) (reliable : s.IsReliable d.key)
    (known : ∀ entry, s.find? d.key = some entry → entry < s.skeleton.locks.length ∧ s.skeleton.isRetired entry = false)
    (tiled : Tiled (d.tiling policy first) earlier runs next s)
    (stands : Stands policy d (d.tiling policy first) runs next s (some phase)) :
    (phase.turn policy clock (d.forSegment next) s).Leads
      (fun t next' => Tiled (d.tiling policy first) earlier runs next t ∧
        Stands policy d (d.tiling policy first) runs next t (some next'))
      (Obtains d (d.tiling policy first) earlier runs next) := by
  cases phase with
  | lookup =>
    obtain ⟨found,noted⟩ := noteOf_enter s clock d.key
    obtain ⟨launches,runs⟩ := runs_enter s clock d.key
    have tiled' := tiled.same (t := (enter clock d.key s).1) launches (by simp only [State.skeleton,runs])
      (by simp only [State.skeleton,runs])
    exact ⟨tiled',found,noted ▸ stands⟩
  | approaching entry =>
    have same := State.SameSessions.approach s entry
    exact ⟨tiled.same same.launches same.jobs same.destroyed,(same.find? d.key).trans stands.1,same.plays stands.2⟩
  | locking entry ticket =>
    unfold turn
    dsimp only
    split
    · trivial
    · rename_i e locked
      obtain ⟨found,plays⟩ := stands
      have listed : e.isRetired = false := (State.isRetired_of_locked locked).symm.trans (known entry found).2
      exact decide_tiles locked listed counted window segment tiled found plays
  | retrying => exact stands.elim
  | listing entry ticket run =>
    obtain ⟨found,plays,is_last,covers,exited⟩ := stands
    refine ⟨tiled,found,plays,is_last,covers,?_⟩
    obtain ⟨k,r,length,at_run,from_k,to_k,_⟩ := tiled.last is_last
    have bound : s.boundTo? d.key = some run := by
      rw [State.boundTo?_eq,found,Option.bind_some,← s.run_noteAt]
      exact plays.run.trans is_last
    have upto : next < r.job.last := by
      rw [to_k,Tiling.stop,← length]
      exact Nat.lt_min.mpr ⟨covers,segment⟩
    obtain ⟨r',a,name,here,available,member⟩ := reliable.written run r bound at_run exited next
      (from_k.trans_le (tiled.needed k length).le) upto
    have holds : (a.segment? next).isSome = true := (a.segment?_isSome next).mpr ⟨name,member⟩
    simpa [here,available,Acquire.index,Demand.forSegment] using holds
  | listed entry ticket run holds =>
    obtain ⟨found,plays,is_last,covers,rfl⟩ := stands
    exact obtains_reused (known entry found).1 tiled found plays is_last covers
  | starting entry ticket phase =>
    obtain ⟨found,at_end,start⟩ := stands
    have proper : 1 ≤ (d.tiling policy first).length := by
      simp only [Demand.tiling]
      split <;> omega
    have known' : ∀ run, runs.getLast? = some run → run < s.runs.length := by
      intro run is_last
      obtain ⟨k,at_k⟩ := List.mem_iff_getElem?.mp (List.mem_of_getLast? is_last)
      exact tiled.lt at_k
    have starts := phase.turn_stands ticket (known entry found).1 reliable.launches known' start
    refine starts.within ?_ ?_
    · rintro t next' ⟨grows,start'⟩
      exact ⟨tiled.grow grows,grows.find d.key entry found,at_end,start'⟩
    · rintro t _ ⟨run,rfl,launched⟩
      refine ⟨entry,run,runs ++ [run],rfl,List.prefix_append _ _,List.getLast?_concat,
        tiled.extend at_end proper launched rfl (last_forSegment counted entry),?_⟩
      have note := (launched.noteOf found).2
      exact ⟨(congrArg Note.run note).trans List.getLast?_concat.symm,fun _ => congrArg (·.requested + 1) note⟩

end Acquire
end Playout.Playback
