import Playout.Proofs.Playback.Progress
import Playout.Proofs.Playback.Tiled

/-!
One player that asks for the segments of a rendering one after another. While it does so,
segments are marked as served, encoders report, leases are given back, processes end and
time passes, in any order (`Viewing`); the runs that are launched meanwhile tile the
rendering from the first segment on.
-/
namespace Playout.Playback

/-! ### A viewing -/

/-- A viewing has come to a traffic: the player asks for the segments of a rendering one after another. It is known
    which segment is the next, which runs have served those before it, and how far the request for it is, if it is under
    way. Runs can be started, and encoders end only when they have written all their segments. -/
inductive Viewing (policy : Policy) (d : Demand) (first : Nat) (start : Traffic) :
    Nat → List Nat → Option Acquire → Traffic → Prop
  | begins : Viewing policy d first start first [] none start
  /-- The player marks and gives back what it likes, encoders report, and whatever happens around the table. -/
  | rests {next : Nat} {served : List Nat} {request : Option Acquire} {w w' : Traffic}
      (before : Viewing policy d first start next served request w) (step : Traffic.Step policy .free w w')
      (aside : ∀ call ∈ w'.calls, call.IsAside) : Viewing policy d first start next served request w'
  | asks {next : Nat} {served : List Nat} {w : Traffic} (before : Viewing policy d first start next served none w)
      (segment : next < d.rendering.segmentCount) : Viewing policy d first start next served (some .lookup) w
  | goesOn {next : Nat} {served : List Nat} {phase phase' : Acquire} {w : Traffic} {s : State}
      (before : Viewing policy d first start next served (some phase) w) (reliable : w.state.IsReliable d.key)
      (turned : phase.turn policy w.clock (d.forSegment next) w.state = .goesOn s phase') :
      Viewing policy d first start next served (some phase')
        { w with state := s, makers := w.makersAfter (.acquire (d.forSegment next) phase) s }
  | obtains {next : Nat} {served : List Nat} {phase : Acquire} {w : Traffic} {s : State} {lease : Lease} {run : Nat}
      (before : Viewing policy d first start next served (some phase) w) (reliable : w.state.IsReliable d.key)
      (turned : phase.turn policy w.clock (d.forSegment next) w.state = .ends s (.ok lease)) (given : lease.run = some run) :
      Viewing policy d first start (next + 1) (served ++ [run]) none
        { w with
          state := s, grants := {⟨d.forSegment next,lease⟩} + w.grants,
          makers := w.makersAfter (.acquire (d.forSegment next) phase) s }

variable {policy : Policy} {d : Demand} {first next : Nat} {start w : Traffic} {served runs : List Nat}
  {request : Option Acquire}

/-- A viewing is a history of the traffic, with the request among the calls. -/
theorem Viewing.reachable (viewing : Viewing policy d first start next served request w)
    (reached : start.Reachable policy .free) :
    (w.joined (request.map (.acquire (d.forSegment next))) 0).Reachable policy .free := by
  induction viewing with
  | begins =>
    rw [Traffic.joined,Multiset.add_zero]
    exact reached
  | rests before step aside ih => exact ih.tail (step.joined _ 0)
  | asks before segment ih => exact ih.tail (.ask _ trivial)
  | @goesOn next served phase phase' w s before reliable turned ih =>
    have turned' : Call.turn policy w.clock (.acquire (d.forSegment next) phase) w.state =
        .goesOn s (.acquire (d.forSegment next) phase') := by
      rw [Call.turn,turned]
      rfl
    exact ih.tail (.goesOn _ w.calls rfl turned')
  | @obtains next served phase w s lease run before reliable turned given ih =>
    have turned' : Call.turn policy w.clock (.acquire (d.forSegment next) phase) w.state =
        .ends s (some ⟨d.forSegment next,lease⟩) := by
      rw [Call.turn,turned]
      rfl
    have ended := ih.tail (.ends _ w.calls rfl turned')
    rw [show (w.joined _ 0).grants = w.grants + 0 from rfl,← Multiset.add_assoc] at ended
    exact ended

/-- How a viewing stands: the runs that were launched lie end to end, and each segment was served by the run that
    covers it. -/
structure Viewed (policy : Policy) (d : Demand) (g : Tiling) (earlier runs : List Nat) (next : Nat) (served : List Nat)
    (request : Option Acquire) (w : Traffic) : Prop where
  asides : ∀ call ∈ w.calls, call.IsAside
  within : next ≤ g.count
  segment : ∀ phase, request = some phase → next < g.count
  tiled : Tiled g earlier runs next w.state
  stands : Acquire.Stands policy d g runs next w.state request
  counted : g.first + served.length = next
  covered : ∀ j run, served[j]? = some run →
    ∃ k, runs[k]? = some run ∧ g.start k ≤ g.first + j ∧ g.first + j < g.start (k + 1)

/-- One more segment was served. -/
theorem Viewed.obtain {g : Tiling} {earlier runs' : List Nat} {phase : Acquire} {w' : Traffic} {run : Nat}
    (viewed : Viewed policy d g earlier runs next served (some phase) w) (calls : w'.calls = w.calls) (grows : runs <+: runs')
    (is_last : runs'.getLast? = some run) (tiled : Tiled g earlier runs' (next + 1) w'.state)
    (plays : (w'.state.noteOf d.key).Plays runs' (next + 1)) :
    Viewed policy d g earlier runs' (next + 1) (served ++ [run]) none w' where
  asides := calls ▸ viewed.asides
  within := viewed.segment phase rfl
  segment _ none := by cases none
  tiled := tiled
  stands := plays
  counted := by
    rw [List.length_append,List.length_singleton,← viewed.counted,Nat.add_assoc]
  covered j other at_j := by
    rw [List.getElem?_append] at at_j
    split at at_j
    · obtain ⟨k,at_k,range⟩ := viewed.covered j other at_j
      obtain ⟨more,rfl⟩ := grows
      exact ⟨k,(List.getElem?_append_left (List.getElem?_eq_some_iff.mp at_k).1).trans at_k,range⟩
    · rename_i outside
      rw [List.getElem?_singleton] at at_j
      split at at_j
      · cases at_j
        obtain ⟨rest,rfl⟩ := List.getLast?_eq_some_iff.mp is_last
        have here : g.first + j = next := by
          have counted := viewed.counted
          omega
        have reaches := tiled.reaches
        have needed := tiled.needed rest.length (by simp)
        rw [List.length_append,List.length_singleton] at reaches
        exact ⟨rest.length,List.getElem?_concat_length,by omega,by omega⟩
      · cases at_j

namespace Viewing

variable (reached : start.Reachable policy .free) (counted : d.rendering.segmentCount ≤ max32)
  (copies : 1 ≤ policy.maxCopySegments) (window : 1 ≤ policy.reuseWindow)

include reached counted copies window

/-- A turn of the request for the next segment. -/
theorem turn_tiles {phase : Acquire} (viewing : Viewing policy d first start next served (some phase) w)
    (viewed : Viewed policy d (d.tiling policy first) start.state.launches runs next served (some phase) w)
    (reliable : w.state.IsReliable d.key) :
    (phase.turn policy w.clock (d.forSegment next) w.state).Leads
      (fun t next' => Tiled (d.tiling policy first) start.state.launches runs next t ∧
        Acquire.Stands policy d (d.tiling policy first) runs next t (some next'))
      (Acquire.Obtains d (d.tiling policy first) start.state.launches runs next) := by
  have sound := Traffic.sound_of_reachable (viewing.reachable reached)
  refine phase.turn_tiles counted copies window (viewed.segment phase rfl) reliable ?_ viewed.tiled viewed.stands
  intro entry found
  refine sound.stays (fun cleaning member => ?_) found
  rcases Multiset.mem_cons.mp member with is | among
  · cases is
  · exact viewed.asides _ among

/-- In every viewing, the runs that were launched lie end to end. -/
theorem viewed (idle : ∀ call ∈ start.calls, call.IsAside) (unbound : start.state.boundTo? d.key = none)
    (inside : first < d.rendering.segmentCount) (viewing : Viewing policy d first start next served request w) :
    ∃ runs, Viewed policy d (d.tiling policy first) start.state.launches runs next served request w := by
  induction viewing with
  | begins =>
    refine ⟨[],idle,inside.le,(fun _ none => by cases none),?_,?_,rfl,(fun j run at_j => by cases at_j)⟩
    · refine ⟨(List.append_nil _).symm,Nat.le_refl _,?_,(fun k counted => by cases counted),?_,?_⟩
      · simp [Tiling.start,Demand.tiling]
      · intro k run at_k
        cases at_k
      · intro k run at_k
        cases at_k
    · exact ⟨(start.state.run_noteOf d.key).trans unbound,fun some => absurd rfl some⟩
  | @rests next served request w w' before step aside ih =>
    obtain ⟨runs,viewed⟩ := ih
    have sound := Traffic.sound_of_reachable (before.reachable reached)
    have working : w.state.skeleton.isShuttingDown = false := by
      cases request <;> exact sound.listed.working
    have same := step.same working viewed.asides aside
    exact ⟨runs,{ viewed with
      asides := aside
      tiled := viewed.tiled.same same.launches same.jobs same.destroyed
      stands := viewed.stands.same same }⟩
  | asks before segment ih =>
    obtain ⟨runs,viewed⟩ := ih
    exact ⟨runs,{ viewed with segment := fun _ _ => segment, stands := viewed.stands }⟩
  | @goesOn next served phase phase' w s before reliable turned ih =>
    obtain ⟨runs,viewed⟩ := ih
    have tiles := before.turn_tiles reached counted copies window viewed reliable
    rw [turned] at tiles
    exact ⟨runs,{ viewed with
      asides := viewed.asides
      segment := fun _ _ => viewed.segment phase rfl
      tiled := tiles.1
      stands := tiles.2 }⟩
  | @obtains next served phase w s lease run before reliable turned given ih =>
    obtain ⟨runs,viewed⟩ := ih
    have tiles := before.turn_tiles reached counted copies window viewed reliable
    rw [turned] at tiles
    obtain ⟨entry,run',runs',is,grows,is_last,tiled,plays⟩ := tiles
    cases is
    cases given
    exact ⟨runs',viewed.obtain rfl grows is_last tiled plays⟩

/-- While a request is under way, it can take a turn or a call can that stands before it, and with every turn it comes
    nearer to a lease. -/
theorem comes_on {phase : Acquire} (viewing : Viewing policy d first start next served (some phase) w)
    (viewed : Viewed policy d (d.tiling policy first) start.state.launches runs next served (some phase) w)
    (reliable : w.state.IsReliable d.key) :
    match phase.turn policy w.clock (d.forSegment next) w.state with
    | .blocked _ => ∃ call ∈ w.calls, ¬ (call.turn policy w.clock w.state).Waits
    | .goesOn _ phase' => phase'.turnsLeft < phase.turnsLeft
    | .ends _ r => ∃ lease run, r = .ok lease ∧ lease.run = some run := by
  have tiles := viewing.turn_tiles reached counted copies window viewed reliable
  have nearer := @Acquire.turn_nearer policy w.clock w.state phase (d.forSegment next)
  cases turned : phase.turn policy w.clock (d.forSegment next) w.state with
  | blocked wake =>
    have waits : ¬ ¬ (phase.turn policy w.clock (d.forSegment next) w.state).Waits := by
      rw [turned]
      exact fun goes => goes trivial
    obtain ⟨entry,ticket,locking⟩ : ∃ entry ticket, phase = .locking entry ticket := by
      by_contra other
      exact waits (phase.turn_goes _ fun entry ticket is => absurd ⟨entry,ticket,is⟩ other)
    have sound := Traffic.sound_of_reachable (viewing.reachable reached)
    have has : Hold.ticket? (Call.grip (.acquire (d.forSegment next) phase)).hold = some (entry,ticket) := by
      rw [locking]
      rfl
    obtain ⟨call,going,goes⟩ := sound.someone_turns (Multiset.mem_cons_self _ _) has
    rcases Multiset.mem_cons.mp going with rfl | other
    · refine absurd ?_ goes
      have same : Call.turn policy w.clock (.acquire (d.forSegment next) phase) w.state = .blocked wake := by
        rw [Call.turn,turned]
        rfl
      have waited := congrArg Turn.Waits same
      exact waited.mpr trivial
    · exact ⟨call,other,goes⟩
  | goesOn t phase' =>
    rw [turned] at tiles nearer
    rcases nearer with rfl | nearer
    · exact tiles.2.elim
    · exact nearer
  | ends t r =>
    rw [turned] at tiles
    obtain ⟨entry,run,_,is,_⟩ := tiles
    exact ⟨_,run,is,rfl⟩

end Viewing

/-- Whether a run is for the segments from one on and before another one. -/
def State.HasRange (s : State) (run first last : Nat) : Prop :=
  ∃ r, s.runs[run]? = some r ∧ r.job.first = first ∧ r.job.last = last

namespace Viewing

/-- One player asks for the segments of a rendering one after another, from some segment on, where no run was bound for
    it. Each request comes to a lease: until then it can take a turn, or a call can that keeps it waiting, and it has
    fewer turns left after each. Whenever no request is under way, the runs that were launched meanwhile tile what was
    asked for: for copies each but the last has the greatest length that a run may have, and for what is encoded anew
    there is one run up to the end. Each segment was served by the run that covers it, and only the last run is not
    destroyed. -/
theorem runs_tile_the_rendering (reached : start.Reachable policy .free) (idle : ∀ call ∈ start.calls, call.IsAside)
    (unbound : start.state.boundTo? d.key = none) (counted : d.rendering.segmentCount ≤ max32)
    (copies : 1 ≤ policy.maxCopySegments) (window : 1 ≤ policy.reuseWindow) (inside : first < d.rendering.segmentCount)
    (viewing : Viewing policy d first start next served request w) :
    (∀ phase, request = some phase → w.state.IsReliable d.key →
      match phase.turn policy w.clock (d.forSegment next) w.state with
      | .blocked _ => ∃ call ∈ w.calls, ¬ (call.turn policy w.clock w.state).Waits
      | .goesOn _ phase' => phase'.turnsLeft < phase.turnsLeft
      | .ends _ r => ∃ lease run, r = .ok lease ∧ lease.run = some run) ∧
    (∀ call ∈ w.calls, (call.turn policy w.clock w.state).Leads (fun _ call' => call'.turnsLeft < call.turnsLeft)
      (fun _ _ => True)) ∧
    (request = none → ∃ runs, w.state.launches = start.state.launches ++ runs ∧
      (d.rendering.representation.isCopy = true →
        runs.length = (next - first + policy.maxCopySegments - 1) / policy.maxCopySegments ∧
        ∀ k run, runs[k]? = some run → w.state.HasRange run (first + k * policy.maxCopySegments)
          (min (first + (k + 1) * policy.maxCopySegments) d.rendering.segmentCount)) ∧
      (d.rendering.representation.isCopy = false → first < next →
        ∃ run, runs = [run] ∧ w.state.HasRange run first d.rendering.segmentCount) ∧
      served.length = next - first ∧
      (∀ j run, served[j]? = some run → run ∈ runs ∧
        ∃ l u, w.state.HasRange run l u ∧ l ≤ first + j ∧ first + j < u) ∧
      ∀ run ∈ runs, w.state.isDestroyed run = false ↔ runs.getLast? = some run) := by
  obtain ⟨runs,viewed⟩ := viewing.viewed reached counted copies window idle unbound inside
  refine ⟨?_,?_,?_⟩
  · rintro phase rfl reliable
    exact viewing.comes_on reached counted copies window viewed reliable
  · exact fun call going => call.turn_nearer (viewed.asides call going)
  · rintro rfl
    have tiled := viewed.tiled
    have ranges : ∀ k run, runs[k]? = some run →
        w.state.HasRange run ((d.tiling policy first).start k) ((d.tiling policy first).stop k) := by
      intro k run at_k
      obtain ⟨job,ordered,range⟩ := tiled.jobs k run at_k
      obtain ⟨r,found,rfl⟩ := State.run_of_job ordered
      exact ⟨r,found,range⟩
    refine ⟨runs,tiled.launches,?_,?_,?_,?_,fun run member => tiled.isDestroyed_iff member⟩
    · intro copied
      have length : (d.tiling policy first).length = policy.maxCopySegments := by simp [Demand.tiling,copied]
      have many := tiled.length_eq (by rw [length]; exact copies)
      rw [length] at many
      refine ⟨many,fun k run at_k => ?_⟩
      have range := ranges k run at_k
      simp only [Tiling.stop,Tiling.start,length] at range
      exact range
    · intro encoded asked
      have length : (d.tiling policy first).length = d.rendering.segmentCount := by simp [Demand.tiling,encoded]
      have many : runs.length = 1 := by
        rw [tiled.length_eq (by omega),length]
        have last : next ≤ d.rendering.segmentCount := viewed.within
        exact Nat.div_eq_of_lt_le (by simp only [Demand.tiling]; omega) (by simp only [Demand.tiling]; omega)
      obtain ⟨run,rfl⟩ := List.length_eq_one_iff.mp many
      exact ⟨run,rfl,by simpa [Tiling.stop,Tiling.start,Demand.tiling,encoded] using ranges 0 run rfl⟩
    · have asked : first + served.length = next := viewed.counted
      omega
    · intro j run at_j
      obtain ⟨k,at_k,from_k,upto⟩ := viewed.covered j run at_j
      refine ⟨List.mem_of_getElem? at_k,_,_,ranges k run at_k,from_k,?_⟩
      have before : j < served.length := (List.getElem?_eq_some_iff.mp at_j).1
      have asked : first + served.length = next := viewed.counted
      have within : next ≤ d.rendering.segmentCount := viewed.within
      have segment : first + j < d.rendering.segmentCount := by omega
      exact Nat.lt_min.mpr ⟨upto,segment⟩

/-- Where a run may copy one segment, two segments take two runs. -/
theorem two_runs_for_two_segments :
    ∃ w : Traffic, Viewing { Policy.ofConfig {} with maxCopySegments := 1 } Traffic.shortFilm 0 {} 2 [0,1] none w ∧
      w.state.launches = [0,1] ∧ w.state.HasRange 0 0 1 ∧ w.state.HasRange 1 1 2 ∧ w.state.isDestroyed 1 = false := by
  have asked : Viewing { Policy.ofConfig {} with maxCopySegments := 1 } Traffic.shortFilm 0 {} 0 [] (some .lookup) {} :=
    .asks .begins (by decide)
  have working {s : State} (launches : s.Launches) (works : s.boundTo? Traffic.shortFilm.key = none ∨
      ∃ run, s.boundTo? Traffic.shortFilm.key = some run ∧ s.hasExited run = false) :
      s.IsReliable Traffic.shortFilm.key := by
    refine .of_working launches fun run bound => ?_
    rcases works with unbound | ⟨run',bound',works⟩
    · cases unbound.symm.trans bound
    · cases bound'.symm.trans bound
      exact works
  have found := asked.goesOn (working ⟨rfl,rfl,rfl⟩ (.inl rfl)) rfl
  have entered := found.goesOn (working ⟨rfl,rfl,rfl⟩ (.inl rfl)) rfl
  have inside := entered.goesOn (working ⟨rfl,rfl,rfl⟩ (.inl rfl)) rfl
  have unbound := inside.goesOn (working ⟨rfl,rfl,rfl⟩ (.inl rfl)) rfl
  have rooted := unbound.goesOn (working ⟨rfl,rfl,rfl⟩ (.inl rfl)) rfl
  have made := rooted.goesOn (working ⟨rfl,rfl,rfl⟩ (.inl rfl)) rfl
  have served := made.obtains (working ⟨rfl,rfl,rfl⟩ (.inl rfl)) rfl rfl
  have again := served.asks (by decide)
  have found' := again.goesOn (working ⟨rfl,rfl,rfl⟩ (.inr ⟨0,rfl,rfl⟩)) rfl
  have entered' := found'.goesOn (working ⟨rfl,rfl,rfl⟩ (.inr ⟨0,rfl,rfl⟩)) rfl
  have inside' := entered'.goesOn (working ⟨rfl,rfl,rfl⟩ (.inr ⟨0,rfl,rfl⟩)) rfl
  have unbound' := inside'.goesOn (working ⟨rfl,rfl,rfl⟩ (.inr ⟨0,rfl,rfl⟩)) rfl
  have rooted' := unbound'.goesOn (working ⟨rfl,rfl,rfl⟩ (.inl rfl)) rfl
  have made' := rooted'.goesOn (working ⟨rfl,rfl,rfl⟩ (.inl rfl)) rfl
  have served' := made'.obtains (working ⟨rfl,rfl,rfl⟩ (.inl rfl)) rfl rfl
  obtain ⟨_,_,tiles⟩ := runs_tile_the_rendering .refl (fun _ going => by cases going) rfl (by decide) (by decide)
    (by decide) (by decide) served'
  obtain ⟨runs,launched,copied,_,_,_,alive⟩ := tiles rfl
  have launched : runs = [0,1] := launched.symm
  subst launched
  obtain ⟨_,ranges⟩ := copied rfl
  exact ⟨_,served',rfl,ranges 0 0 rfl,ranges 1 1 rfl,(alive 1 (by decide)).mpr rfl⟩

end Viewing
end Playout.Playback
