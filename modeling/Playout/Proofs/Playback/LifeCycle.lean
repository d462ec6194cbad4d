import Mathlib.Data.Multiset.MapFold
import Playout.Proofs.Playback.Skeleton
import Playout.Proofs.Representation.Tiling

/-!
The life of one run, from its creation on, while any number of others throttle it,
resume it, destroy it and wait for the end of its process. What happens under the
lock on the stage is taken apart: a signal is sent first and noted then, and a run
is marked as destroyed before it takes the lock and is stopped. Only who holds the
lock changes the stage, but everything else may happen meanwhile. So a life is seen
by its stage, its mark, its process, the signal that is not noted yet and the work
of those that destroy it (`Sight`), and few things can happen to these
(`Sight.Move`).
-/
namespace Playout.Playback

/-! ### Signals and marks -/

/-- The stage of a run that is to get a signal. -/
def stageBefore (pause : Bool) : Stage := if pause then .running else .throttled

/-- The stage of a run that has got a signal. -/
def stageAfter (pause : Bool) : Stage := if pause then .throttled else .running

namespace State

/-- The state where a signal was sent to the process of a run, if the run is at the stage for it and it arrives. -/
def send? (s : State) (run : Nat) (pause : Bool) : Option State :=
  (s.runs[run]?).bind fun r => if r.stage = stageBefore pause then s.signal? r.process pause else none

/-- The state where a signal is noted. -/
def noteSignal (s : State) (run : Nat) (pause : Bool) : State :=
  s.onRun run fun r => { r with stage := stageAfter pause }

theorem signalRun_eq (s : State) (run : Nat) (pause : Bool) :
    (s.signalRun run pause (stageBefore pause) (stageAfter pause)).1 =
      ((s.send? run pause).map (·.noteSignal run pause)).getD s := by
  rw [signalRun,send?]
  cases s.runs[run]? with
  | none => rfl
  | some r =>
    by_cases fits : r.stage = stageBefore pause
    · simp only [Option.bind_some,if_pos fits]
      cases s.signal? r.process pause <;> rfl
    · simp only [Option.bind_some,if_neg fits]
      rfl

end State

/-- The run with a mark that it is destroyed. -/
def markRun (r : Run) : Run := { r with isDestroyed := true }

/-- The run that is stopping, unless it has exited. -/
def stopRun (r : Run) : Run := { r with stage := if r.stage = .exited then .exited else .stopping }

theorem State.destroy_eq (s : State) (run : Nat) : s.destroy run = (s.onRun run markRun).onRun run stopRun := by
  rw [destroy,onRun,onRun,onRun,List.modify_modify_eq]
  rfl

/-! ### Histories of a run -/

/-- Who destroys a run: one that has marked it and has still to stop it, or one that tears it down. -/
inductive Destroyer where
  | marking (isDetached : Bool)
  | tearing (phase : Teardown)

/-- A run in the table with those that act on it. -/
structure Life where
  state : State
  clock : Clock
  hasBegun : Bool
  /-- The signal that was sent and is not noted; the lock on the stage is held until it is. -/
  sent : Option Bool
  destroyers : Multiset Destroyer

namespace Life

/-- A run that was just created. -/
def created (s : State) (clock : Clock) : Life := ⟨s,clock,false,none,0⟩

/-- Whether the table may come to a state: while the lock on the stage is held, nobody else changes the stage. -/
def Permits (run : Nat) (w : Life) (s : State) : Prop :=
  w.sent = none ∨ (s.runs[run]?).map (·.stage) = (w.state.runs[run]?).map (·.stage)

/-- One step of a life: the start, a signal or its note, a step of a destruction, a turn of a task, or something
    that happens around the run. -/
inductive Step (run : Nat) : Life → Life → Prop
  | start {w : Life} {s : State} (new : w.hasBegun = false) (launched : w.state.launch run = .ok s) :
      Step run w { w with state := s, hasBegun := true }
  | fail {w : Life} {why : Error} (new : w.hasBegun = false) (failed : w.state.launch run = .error why) :
      Step run w { w with state := Teardown.noteExit w.state run, hasBegun := true }
  | send {w : Life} {s : State} (pause : Bool) (free : w.sent = none) (arrived : w.state.send? run pause = some s) :
      Step run w { w with state := s, sent := some pause }
  | note {w : Life} (pause : Bool) (holds : w.sent = some pause) :
      Step run w { w with state := w.state.noteSignal run pause, sent := none }
  | mark {w : Life} (isDetached : Bool) (begun : w.hasBegun = true) (first : w.state.isDestroyed run = false) :
      Step run w
        { w with state := w.state.onRun run markRun, destroyers := .marking isDetached ::ₘ w.destroyers }
  | stop {w : Life} (others : Multiset Destroyer) (going : w.destroyers = .marking false ::ₘ others)
      (free : w.sent = none) :
      Step run w { w with state := w.state.onRun run stopRun, destroyers := .tearing .start ::ₘ others }
  | stopDetached {w : Life} (others : Multiset Destroyer) (going : w.destroyers = .marking true ::ₘ others)
      (free : w.sent = none) :
      Step run w
        { w with state := (w.state.onRun run stopRun).spawn (.teardown run .start), destroyers := others }
  | tear {w : Life} {s : State} {phase next : Teardown} (others : Multiset Destroyer)
      (going : w.destroyers = .tearing phase ::ₘ others)
      (turned : phase.turn w.clock run w.state = .goesOn s next) (permitted : w.Permits run s) :
      Step run w { w with state := s, destroyers := .tearing next ::ₘ others }
  | torn {w : Life} {s : State} {phase : Teardown} (others : Multiset Destroyer)
      (going : w.destroyers = .tearing phase ::ₘ others)
      (turned : phase.turn w.clock run w.state = .ends s ()) (permitted : w.Permits run s) :
      Step run w { w with state := s, destroyers := others }
  | task {w : Life} {s : State} (number : Nat) (turned : w.state.taskTurn? w.clock number = some s)
      (permitted : w.Permits run s) : Step run w { w with state := s }
  | happen {w : Life} (event : Event) : Step run w { w with state := event.apply w.state }
  | wait {w : Life} (clock : Clock) : Step run w { w with clock := clock }

/-- A life that some history leads to, from the creation of the run on. -/
def Reachable (run : Nat) (w : Life) : Prop :=
  ∃ s clock job, s.runs[run]? = some { job } ∧ s.tasks = [] ∧
    Relation.ReflTransGen (Step run) (created s clock) w

end Life

/-! ### What the operations do is a history -/

variable {run : Nat} {w w' : Life}

theorem Life.signalRun_steps (pause : Bool) (free : w.sent = none) :
    Relation.ReflTransGen (Life.Step run) w
      { w with state := (w.state.signalRun run pause (stageBefore pause) (stageAfter pause)).1 } := by
  rw [State.signalRun_eq]
  cases arrived : w.state.send? run pause with
  | none => exact .refl
  | some s =>
    have sent : Life.Step run w { w with state := s, sent := some pause } := .send pause free arrived
    have noted : Life.Step run { w with state := s, sent := some pause } _ := .note pause rfl
    have same : ({ w with state := s.noteSignal run pause, sent := none } : Life) =
        { w with state := s.noteSignal run pause } := by rw [free]
    exact same ▸ (Relation.ReflTransGen.single sent).tail noted

theorem Life.destroyed_steps (begun : w.hasBegun = true) (free : w.sent = none) :
    Relation.ReflTransGen (Life.Step run) w
      { w with
        state := (w.state.destroyed run).1
        destroyers := ((w.state.destroyed run).2.elim 0 fun phase => {.tearing phase}) + w.destroyers } := by
  rw [State.destroyed]
  cases first : w.state.isDestroyed run with
  | true => simpa using Relation.ReflTransGen.refl
  | false =>
    have marked : Life.Step run w _ := .mark false begun first
    have stopped : Life.Step run { w with
        state := w.state.onRun run markRun, destroyers := .marking false ::ₘ w.destroyers } _ :=
      .stop w.destroyers rfl free
    have both := (Relation.ReflTransGen.single marked).tail stopped
    simpa [State.destroy_eq] using both

theorem Life.destroyDetached_steps (begun : w.hasBegun = true) (free : w.sent = none) :
    Relation.ReflTransGen (Life.Step run) w { w with state := w.state.destroyDetached run } := by
  rw [State.destroyDetached]
  cases first : w.state.isDestroyed run with
  | true => exact .refl
  | false =>
    have marked : Life.Step run w _ := .mark true begun first
    have stopped : Life.Step run { w with
        state := w.state.onRun run markRun, destroyers := .marking true ::ₘ w.destroyers } _ :=
      .stopDetached w.destroyers rfl free
    have both := (Relation.ReflTransGen.single marked).tail stopped
    simpa [State.destroy_eq] using both

/-! ### What is seen of a life -/

/-- What a process shows again later: the last signal, how often it was asked to terminate, and its end. -/
structure Outlives (later earlier : Encoder.Process) : Prop where
  isPaused : later.isPaused = earlier.isPaused
  terminations : later.terminations = earlier.terminations
  exited : earlier.hasExited = true → later.hasExited = true

/-- What is seen of a life; work on the destruction has no phase before the run is stopped. -/
structure Sight where
  stage : Stage
  isDestroyed : Bool
  process : Option Encoder.Process
  sent : Option Bool
  works : Multiset (Option Teardown)

namespace Sight

/-- Whether some work is what is left of other work: the same, or one that was at a phase is done or at another. -/
def IsLeft (works earlier : Multiset (Option Teardown)) : Prop :=
  works = earlier ∨ ∃ phase others, earlier = some phase ::ₘ others ∧
    (works = others ∨ ∃ next, next ≠ .start ∧ works = some next ::ₘ others)

/-- What can happen to what is seen of a life. -/
inductive Move : Sight → Sight → Prop
  | start {x : Sight} (q : Encoder.Process) (new : x.stage = .new) (absent : x.process = none)
      (unpaused : q.isPaused = false) (unasked : q.terminations = 0) : Move x { x with stage := .running, process := some q }
  | send {x : Sight} (pause : Bool) (q : Encoder.Process) (free : x.sent = none) (fits : x.stage = stageBefore pause)
      (process : x.process = some q) :
      Move x { x with process := some { q with isPaused := pause }, sent := some pause }
  | note {x : Sight} (pause : Bool) (holds : x.sent = some pause) :
      Move x { x with stage := stageAfter pause, sent := none }
  | mark {x : Sight} (begun : x.stage ≠ .new) (first : x.isDestroyed = false) :
      Move x { x with isDestroyed := true, works := none ::ₘ x.works }
  | stop {x : Sight} (others : Multiset (Option Teardown)) (going : x.works = none ::ₘ others) (free : x.sent = none) :
      Move x
        { x with stage := if x.stage = .exited then .exited else .stopping, works := some .start ::ₘ others }
  | ask {x : Sight} (q : Encoder.Process) (others : Multiset (Option Teardown)) (next : Teardown)
      (going : x.works = some .start ::ₘ others) (process : x.process = some q) (later : next ≠ .start) :
      Move x
        { x with process := some { q with terminations := q.terminations + 1 }, works := some next ::ₘ others }
  | pass {x : Sight} (stage : Stage) (process : Option Encoder.Process) (works : Multiset (Option Teardown))
      (exits : stage = x.stage ∨ stage = .exited ∧ (x.sent = none ∨ x.stage = .exited))
      (outlives : Option.Rel Outlives process x.process)
      (left : IsLeft works x.works) :
      Move x { x with stage := stage, process := process, works := works }

/-- Whether the run shows that it has exited. -/
def HasExited (x : Sight) : Prop := x.stage = .exited ∨ ∃ q, x.process = some q ∧ q.hasExited = true

/-- Whether the run is marked as destroyed, and stopped. -/
def IsStopped (x : Sight) : Prop := x.isDestroyed = true ∧ none ∉ x.works

/-- Whether the last signal to the process was the one to pause, or was none or the one to resume. -/
def IsPaused (x : Sight) (pause : Bool) : Prop := ∃ q, x.process = some q ∧ q.isPaused = pause

/-- What fits together in a life. -/
structure Fits (x : Sight) : Prop where
  new : x.stage = .new → x.isDestroyed = false
  one : x.works.card ≤ 1
  unmarked : x.isDestroyed = false → x.works = 0
  stopped : x.IsStopped → x.stage = .stopping ∨ x.stage = .exited
  /-- The holder of the lock has found the stage for its signal, and has sent it. -/
  sent : ∀ pause, x.sent = some pause → x.stage = stageBefore pause ∧ x.IsPaused pause
  noted : ∀ pause, x.sent = none → x.stage = stageAfter pause → x.IsPaused pause
  asked : ∀ q, x.process = some q → q.terminations ≤ 1
  unasked : ∀ q, x.process = some q → (x.isDestroyed = false ∨ none ∈ x.works ∨ some .start ∈ x.works) →
    q.terminations = 0

variable {x y : Sight}

theorem Fits.alone {work : Option Teardown} {others : Multiset (Option Teardown)} (fits : x.Fits)
    (going : x.works = work ::ₘ others) : others = 0 := by
  have one := fits.one
  rw [going,Multiset.card_cons] at one
  exact Multiset.card_eq_zero.mp (by omega)

theorem Fits.marked {work : Option Teardown} {others : Multiset (Option Teardown)} (fits : x.Fits)
    (going : x.works = work ::ₘ others) : x.isDestroyed = true := by
  by_contra unmarked
  rw [fits.unmarked (by simpa using unmarked)] at going
  exact Multiset.cons_ne_zero going.symm

theorem stageBefore_cases (pause : Bool) : stageBefore pause = .running ∨ stageBefore pause = .throttled := by
  cases pause
  · exact .inr rfl
  · exact .inl rfl

theorem stageAfter_inj {pause other : Bool} (same : stageAfter pause = stageAfter other) : pause = other := by
  cases pause <;> cases other <;> first | rfl | cases same

theorem stageAfter_cases (pause : Bool) : stageAfter pause = .running ∨ stageAfter pause = .throttled := by
  cases pause
  · exact .inl rfl
  · exact .inr rfl

theorem IsPaused.outlived {pause : Bool} (paused : x.IsPaused pause) (outlives : Option.Rel Outlives y.process x.process) :
    y.IsPaused pause := by
  obtain ⟨q,here,shows⟩ := paused
  rw [here] at outlives
  cases here' : y.process with
  | none =>
    rw [here'] at outlives
    cases outlives
  | some q' =>
    rw [here'] at outlives
    cases outlives with
    | some kept => exact ⟨q',here',kept.isPaused.trans shows⟩

theorem Fits.start (fits : x.Fits) {q : Encoder.Process} (new : x.stage = .new) (unpaused : q.isPaused = false)
    (unasked : q.terminations = 0) : Fits { x with stage := .running, process := some q } where
  new := nofun
  one := fits.one
  unmarked := fits.unmarked
  stopped := fun stopped => absurd stopped.1 (by simp [fits.new new])
  sent := by
    intro pause held
    have before := (fits.sent pause held).1
    rw [new] at before
    cases pause <;> cases before
  noted := by
    intro pause _ after
    have resumed : pause = false := stageAfter_inj (after.symm : stageAfter pause = stageAfter false)
    exact ⟨q,rfl,unpaused.trans resumed.symm⟩
  asked := by
    rintro _ ⟨⟩
    omega
  unasked := by
    rintro _ ⟨⟩ _
    exact unasked

theorem Fits.send (fits : x.Fits) {pause : Bool} {q : Encoder.Process} (before : x.stage = stageBefore pause)
    (process : x.process = some q) : Fits { x with process := some { q with isPaused := pause }, sent := some pause } where
  new := fits.new
  one := fits.one
  unmarked := fits.unmarked
  stopped := fits.stopped
  sent := by
    rintro _ ⟨⟩
    exact ⟨before,_,rfl,rfl⟩
  noted := nofun
  asked := by
    rintro _ ⟨⟩
    exact fits.asked q process
  unasked := by
    rintro _ ⟨⟩ early
    exact fits.unasked q process early

theorem Fits.note (fits : x.Fits) {pause : Bool} (holds : x.sent = some pause) :
    Fits { x with stage := stageAfter pause, sent := none } where
  new := by
    intro new
    cases pause <;> cases new
  one := fits.one
  unmarked := fits.unmarked
  stopped := by
    intro stopped
    have before := (fits.sent pause holds).1
    rcases fits.stopped stopped with stage | stage <;> rw [stage] at before <;> cases pause <;> cases before
  sent := nofun
  noted := by
    intro other _ after
    obtain rfl := stageAfter_inj after
    exact (fits.sent pause holds).2
  asked := fits.asked
  unasked := fits.unasked

theorem Fits.mark (fits : x.Fits) (begun : x.stage ≠ .new) (first : x.isDestroyed = false) :
    Fits { x with isDestroyed := true, works := none ::ₘ x.works } where
  new := fun new => absurd new begun
  one := by
    rw [fits.unmarked first]
    rfl
  unmarked := nofun
  stopped := fun stopped => absurd (Multiset.mem_cons_self _ _) stopped.2
  sent := fits.sent
  noted := fits.noted
  asked := fits.asked
  unasked := fun q process _ => fits.unasked q process (.inl first)

theorem Fits.stop (fits : x.Fits) {others : Multiset (Option Teardown)} (going : x.works = none ::ₘ others)
    (free : x.sent = none) :
    Fits { x with stage := if x.stage = .exited then .exited else .stopping, works := some .start ::ₘ others } where
  new := by
    intro new
    dsimp only at new
    split_ifs at new
  one := by
    rw [fits.alone going]
    rfl
  unmarked := fun unmarked => absurd (fits.marked going) (by simpa using unmarked)
  stopped := by
    intro _
    dsimp only
    split_ifs
    · exact .inr rfl
    · exact .inl rfl
  sent := fun pause held => absurd (free.symm.trans held) nofun
  noted := by
    intro pause _ after
    dsimp only at after
    rcases stageAfter_cases pause with stage | stage <;> rw [stage] at after <;> split_ifs at after
  asked := fits.asked
  unasked := fun q process _ => fits.unasked q process (.inr (.inl (going ▸ Multiset.mem_cons_self _ _)))

theorem Fits.ask (fits : x.Fits) {q : Encoder.Process} {others : Multiset (Option Teardown)} {next : Teardown}
    (going : x.works = some .start ::ₘ others) (process : x.process = some q) (later : next ≠ .start) :
    Fits { x with
      process := some { q with terminations := q.terminations + 1 }, works := some next ::ₘ others } where
  new := fits.new
  one := by
    rw [fits.alone going]
    rfl
  unmarked := fun unmarked => absurd (fits.marked going) (by simpa using unmarked)
  stopped := by
    rintro ⟨destroyed,_⟩
    refine fits.stopped ⟨destroyed,?_⟩
    rw [going,fits.alone going]
    simp
  sent := by
    intro pause held
    obtain ⟨before,q',here,paused⟩ := fits.sent pause held
    obtain rfl := Option.some.inj (process.symm.trans here)
    exact ⟨before,_,rfl,paused⟩
  noted := by
    intro pause free after
    obtain ⟨q',here,paused⟩ := fits.noted pause free after
    obtain rfl := Option.some.inj (process.symm.trans here)
    exact ⟨_,rfl,paused⟩
  asked := by
    rintro _ ⟨⟩
    have never := fits.unasked q process (.inr (.inr (going ▸ Multiset.mem_cons_self _ _)))
    exact Nat.succ_le_succ never.le
  unasked := by
    rintro _ ⟨⟩ early
    have marked := fits.marked going
    have alone := fits.alone going
    simp [marked,alone,Ne.symm later] at early

theorem Fits.left {works : Multiset (Option Teardown)} (fits : x.Fits) (left : IsLeft works x.works) :
    works.card ≤ 1 ∧ (x.isDestroyed = false → works = 0) ∧ (none ∈ works ↔ none ∈ x.works) ∧
      (some .start ∈ works → some .start ∈ x.works) := by
  rcases left with rfl | ⟨phase,others,going,change⟩
  · exact ⟨fits.one,fits.unmarked,Iff.rfl,id⟩
  · have alone := fits.alone going
    have marked := fits.marked going
    rcases change with rfl | ⟨next,later,rfl⟩
    · simp [going,alone,marked]
    · simp [going,alone,marked,Ne.symm later]

theorem Fits.pass (fits : x.Fits) {stage : Stage} {process : Option Encoder.Process}
    {works : Multiset (Option Teardown)} (exits : stage = x.stage ∨ stage = .exited ∧ (x.sent = none ∨ x.stage = .exited))
    (outlives : Option.Rel Outlives process x.process) (left : IsLeft works x.works) :
    Fits { x with stage := stage, process := process, works := works } := by
  obtain ⟨one,unmarked,marking,starting⟩ := fits.left left
  have kept (pause : Bool) (paused : x.IsPaused pause) :
      IsPaused { x with stage := stage, process := process, works := works } pause := paused.outlived outlives
  have asked : ∀ q, process = some q → ∃ q', x.process = some q' ∧ q.terminations = q'.terminations := by
    intro q here
    rw [here] at outlives
    cases earlier : x.process with
    | none =>
      rw [earlier] at outlives
      cases outlives
    | some q' =>
      rw [earlier] at outlives
      cases outlives with
      | some shows => exact ⟨q',rfl,shows.terminations⟩
  refine ⟨?new,one,unmarked,?stopped,?sent,?noted,?asked,?unasked⟩
  case new =>
    intro new
    obtain same | ⟨ended,_⟩ := exits
    · exact fits.new (same.symm.trans new)
    · cases ended.symm.trans new
  case stopped =>
    rintro ⟨destroyed,stopped⟩
    obtain same | ⟨ended,_⟩ := exits
    · exact same ▸ fits.stopped ⟨destroyed,fun member => stopped (marking.mpr member)⟩
    · exact .inr ended
  case sent =>
    intro pause held
    obtain ⟨before,paused⟩ := fits.sent pause held
    obtain same | ⟨_,free | ended⟩ := exits
    · exact ⟨same.trans before,kept pause paused⟩
    · cases held.symm.trans free
    · rcases stageBefore_cases pause with stage | stage <;> cases ended.symm.trans (before.trans stage)
  case noted =>
    intro pause free after
    obtain same | ⟨ended,_⟩ := exits
    · exact kept pause (fits.noted pause free (same.symm.trans after))
    · rcases stageAfter_cases pause with stage | stage <;> cases ended.symm.trans (after.trans stage)
  case asked =>
    intro q here
    obtain ⟨q',earlier,same⟩ := asked q here
    exact same ▸ fits.asked q' earlier
  case unasked =>
    intro q here early
    obtain ⟨q',earlier,same⟩ := asked q here
    exact same ▸ fits.unasked q' earlier (early.imp_right (Or.imp marking.mp starting))

theorem Move.fits (move : x.Move y) (fits : x.Fits) : y.Fits := by
  cases move with
  | start q new _ unpaused unasked => exact fits.start new unpaused unasked
  | send pause q free before process => exact fits.send before process
  | note pause holds => exact fits.note holds
  | mark begun first => exact fits.mark begun first
  | stop others going free => exact fits.stop going free
  | ask q others next going process later => exact fits.ask going process later
  | pass stage process works exits outlives left => exact fits.pass exits outlives left

/-- Who has seen the end of a run will never see anything else. -/
theorem Move.hasExited (move : x.Move y) (fits : x.Fits) (exited : x.HasExited) : y.HasExited := by
  cases move with
  | start q new absent _ _ =>
    obtain ended | ⟨q',process,_⟩ := exited
    · cases new.symm.trans ended
    · cases absent.symm.trans process
  | send pause q _ _ process =>
    obtain ended | ⟨q',here,ended⟩ := exited
    · exact .inl ended
    · obtain rfl := Option.some.inj (process.symm.trans here)
      exact .inr ⟨_,rfl,ended⟩
  | note pause holds =>
    obtain ended | ended := exited
    · have before := (fits.sent pause holds).1
      rcases stageBefore_cases pause with stage | stage <;> cases ended.symm.trans (before.trans stage)
    · exact .inr ended
  | mark => exact exited
  | stop =>
    obtain ended | ended := exited
    · exact .inl (if_pos ended)
    · exact .inr ended
  | ask q others next _ process _ =>
    obtain ended | ⟨q',here,ended⟩ := exited
    · exact .inl ended
    · obtain rfl := Option.some.inj (process.symm.trans here)
      exact .inr ⟨_,rfl,ended⟩
  | pass stage process works exits outlives _ =>
    obtain ended | ⟨q,here,ended⟩ := exited
    · exact .inl (exits.elim (fun same => same.trans ended) And.left)
    · rw [here] at outlives
      cases outlives with
      | some shows => exact .inr ⟨_,rfl,shows.exited ended⟩

theorem Move.isStopped (move : x.Move y) (stopped : x.IsStopped) : y.IsStopped := by
  obtain ⟨destroyed,unmarked⟩ := stopped
  cases move with
  | mark _ first => cases destroyed.symm.trans first
  | stop others going => exact absurd (going ▸ Multiset.mem_cons_self _ _) unmarked
  | ask q others next going =>
    rw [going] at unmarked
    exact ⟨destroyed,by simpa using unmarked⟩
  | pass stage process works _ _ left =>
    refine ⟨destroyed,?_⟩
    obtain rfl | ⟨phase,others,going,rfl | ⟨next,_,rfl⟩⟩ := left
    · exact unmarked
    · rw [going] at unmarked
      exact fun member => unmarked (Multiset.mem_cons_of_mem member)
    · rw [going] at unmarked
      simpa using unmarked
  | _ => exact ⟨destroyed,unmarked⟩

end Sight

/-- The changes of the stage of a run, which may be destroyed then: only a destroyed run is stopped. -/
inductive StageEdge : Bool → Stage → Stage → Prop
  | start {isDestroyed : Bool} : StageEdge isDestroyed .new .running
  | pause {isDestroyed : Bool} : StageEdge isDestroyed .running .throttled
  | resume {isDestroyed : Bool} : StageEdge isDestroyed .throttled .running
  | stop {stage : Stage} (alive : stage ≠ .exited) : StageEdge true stage .stopping
  | exit {isDestroyed : Bool} {stage : Stage} : StageEdge isDestroyed stage .exited

theorem Sight.Move.edge {x y : Sight} (move : x.Move y) (fits : x.Fits) :
    y.stage = x.stage ∨ StageEdge y.isDestroyed x.stage y.stage := by
  cases move with
  | start q new =>
    dsimp only
    rw [new]
    exact .inr .start
  | send => exact .inl rfl
  | note pause holds =>
    dsimp only
    rw [(fits.sent pause holds).1]
    cases pause
    · exact .inr .resume
    · exact .inr .pause
  | mark => exact .inl rfl
  | stop others going =>
    dsimp only
    rw [fits.marked going]
    split_ifs with ended
    · exact .inl ended.symm
    · exact .inr (.stop ended)
  | ask => exact .inl rfl
  | pass stage process works exits =>
    obtain same | ⟨ended,_⟩ := exits
    · exact .inl same
    · exact .inr (ended ▸ .exit)

/-! ### From steps to moves -/

/-- The phase of the teardown, if the run is stopped. -/
def Destroyer.phase? : Destroyer → Option Teardown
  | marking _ => none
  | tearing phase => some phase

def Task.teardown? : Task → Option Teardown
  | .teardown _ phase => some phase
  | _ => none

/-- The work of tasks that tear the run down. -/
def taskWorks (tasks : List Task) : Multiset (Option Teardown) := (tasks.filterMap Task.teardown?).map some

/-- The work of those that destroy the run, whether somebody waits for it or not. -/
def Life.works (w : Life) : Multiset (Option Teardown) := w.destroyers.map Destroyer.phase? + taskWorks w.state.tasks

def Life.sight (w : Life) (r : Run) : Sight := ⟨r.stage,r.isDestroyed,w.state.processOf? r,w.sent,w.works⟩

/-- A teardown waits for the process of the run alone. -/
def Teardown.Minds (process : Option Nat) : Teardown → Prop
  | terminating number _ => process = some number
  | start | clearing => True

/-- A task minds the run alone. -/
def Task.Minds (run : Nat) (process : Option Nat) : Task → Prop
  | .watch number watched => number = run ∧ process = some watched
  | .teardown number phase => number = run ∧ phase.Minds process
  | .retirement .. => False
  | .over _ => True

/-- A run that is there in a life, with everything that minds it. -/
structure Life.Has (run : Nat) (w : Life) (r : Run) : Prop where
  here : w.state.runs[run]? = some r
  fresh : w.hasBegun = false → r.stage = .new ∧ r.process = none
  begun : w.hasBegun = true → r.stage ≠ .new
  process : ∀ number, r.process = some number → number < w.state.processes.length
  tasks : ∀ task ∈ w.state.tasks, task.Minds run r.process
  destroyers : ∀ phase, Destroyer.tearing phase ∈ w.destroyers → phase.Minds r.process

/-! ### What the operations do to a run -/

variable {s s' : State} {r r' : Run} {phase : Teardown} {next : Option Teardown}

theorem run_onRun (here : s.runs[run]? = some r) (f : Run → Run) : (s.onRun run f).runs[run]? = some (f r) := by
  rw [State.onRun,List.getElem?_modify_eq,here]
  rfl

theorem Outlives.refl (q : Encoder.Process) : Outlives q q := ⟨rfl,rfl,id⟩

theorem outlives_modify {f : Encoder.Process → Encoder.Process} (acts : ∀ q, Outlives (f q) q)
    (processes : List Encoder.Process) (i : Nat) (number : Option Nat) :
    Option.Rel Outlives (number.bind ((processes.modify i f)[·]?)) (number.bind (processes[·]?)) := by
  cases number with
  | none => exact .none
  | some number =>
    rw [Option.bind_some,Option.bind_some,List.getElem?_modify]
    cases processes[number]? with
    | none => exact .none
    | some q =>
      refine .some ?_
      dsimp only
      split_ifs
      · exact acts q
      · exact .refl q

theorem outlives_self (process : Option Encoder.Process) : Option.Rel Outlives process process := by
  cases process with
  | none => exact .none
  | some q => exact .some (.refl q)

theorem outlives_terminate (q : Encoder.Process) : Outlives q.terminate q := by
  rw [Encoder.Process.terminate]
  split_ifs
  · exact .refl q
  · exact ⟨rfl,rfl,fun _ => rfl⟩

/-- What a turn of a teardown does to the state and the run, and the phase that it comes to. -/
inductive Tears (run : Nat) (s : State) (r : Run) : Teardown → State → Run → Option Teardown → Prop
  | absent (none : r.process = none) :
      Tears run s r .start (Teardown.noteExit s run) { r with stage := .exited } (some .clearing)
  | ask {process wake : Nat} (has : r.process = some process) :
      Tears run s r .start (Teardown.ask s process) r (some (.terminating process wake))
  | finish {process wake : Nat} :
      Tears run s r (.terminating process wake) (Teardown.noteExit (Teardown.finish s process) run)
        { r with stage := .exited } (some .clearing)
  | clear (removes : s.removalFails = false) : Tears run s r .clearing (s.removeOutput run) r.removeOutput none
  | keep (fails : s.removalFails = true) : Tears run s r .clearing (s.removeOutput run) r none

theorem tears_of_turn (here : s.runs[run]? = some r) (clock : Clock) (phase : Teardown) :
    match phase.turn clock run s with
    | .blocked _ => True
    | .goesOn s' next => ∃ r', Tears run s r phase s' r' (some next)
    | .ends s' _ => ∃ r', Tears run s r phase s' r' none := by
  cases phase with
  | start =>
    rw [Teardown.turn,here,Option.bind_some]
    cases process : r.process with
    | none => exact ⟨_,.absent process⟩
    | some number => exact ⟨_,.ask process⟩
  | terminating process wake =>
    rw [Teardown.turn]
    split_ifs
    · trivial
    · exact ⟨_,.finish⟩
  | clearing =>
    rw [Teardown.turn]
    cases removal : s.removalFails with
    | true => exact ⟨_,.keep removal⟩
    | false => exact ⟨_,.clear removal⟩

theorem Tears.here (tears : Tears run s r phase s' r' next) (here : s.runs[run]? = some r) : s'.runs[run]? = some r' := by
  cases tears with
  | absent => exact run_onRun here _
  | ask => exact here
  | finish => exact run_onRun (s := Teardown.finish s _) here _
  | clear removes => rw [State.removeOutput,run_onRun here,removes]; rfl
  | keep fails => rw [State.removeOutput,run_onRun here,fails]; rfl

theorem Tears.tasks (tears : Tears run s r phase s' r' next) : s'.tasks = s.tasks := by
  cases tears <;> rfl

theorem Tears.process (tears : Tears run s r phase s' r' next) : r'.process = r.process := by
  cases tears <;> rfl

theorem Tears.length (tears : Tears run s r phase s' r' next) : s'.processes.length = s.processes.length := by
  cases tears with
  | ask => exact List.length_modify ..
  | finish => exact List.length_modify ..
  | _ => rfl

theorem Tears.begun (tears : Tears run s r phase s' r' next) (begun : r.stage ≠ .new) : r'.stage ≠ .new := by
  cases tears with
  | absent => nofun
  | finish => nofun
  | _ => exact begun

theorem Tears.minds (tears : Tears run s r phase s' r' (some phase')) : phase'.Minds r'.process := by
  cases tears with
  | absent => trivial
  | ask has => exact has
  | finish => trivial

theorem Tears.move {others : Multiset (Option Teardown)} (tears : Tears run w.state r phase s' r' next)
    (has : w.Has run r) (going : w.works = some phase ::ₘ others) (permitted : w.Permits run s')
    (processes : w'.state.processes = s'.processes) (sent : w'.sent = w.sent)
    (works : w'.works = next.elim others (some · ::ₘ others)) : (w.sight r).Move (w'.sight r') := by
  have exits (same : s'.runs[run]? = some { r with stage := .exited }) :
      w.sent = none ∨ r.stage = .exited := by
    refine permitted.imp_right fun kept => ?_
    rw [same,has.here] at kept
    exact (Option.some.inj kept).symm
  have here := tears.here has.here
  cases tears with
  | absent absent =>
    rw [Life.sight,Life.sight,sent,works,State.processOf?,State.processOf?,absent]
    exact .pass _ _ _ (.inr ⟨rfl,exits here⟩) .none (.inr ⟨_,_,going,.inr ⟨.clearing,nofun,rfl⟩⟩)
  | @ask process wake named =>
    have inside := has.process process named
    have before : w.state.processOf? r = some w.state.processes[process] := by
      rw [State.processOf?,named,Option.bind_some,List.getElem?_eq_getElem inside]
    have after : w'.state.processOf? r =
        some { w.state.processes[process] with terminations := w.state.processes[process].terminations + 1 } := by
      rw [State.processOf?,named,Option.bind_some,processes,Teardown.ask,List.getElem?_modify_eq,
        List.getElem?_eq_getElem inside]
      rfl
    rw [Life.sight,Life.sight,sent,works,before,after]
    exact .ask _ others (.terminating process wake) going rfl nofun
  | @finish process wake =>
    have outlives : Option.Rel Outlives (w'.state.processOf? r) (w.state.processOf? r) := by
      rw [State.processOf?,processes]
      exact outlives_modify outlives_terminate w.state.processes process r.process
    rw [Life.sight,Life.sight,sent,works]
    exact .pass _ _ _ (.inr ⟨rfl,exits here⟩) outlives (.inr ⟨_,_,going,.inr ⟨.clearing,nofun,rfl⟩⟩)
  | clear | keep =>
    have outlives : Option.Rel Outlives (w'.state.processOf? r) (w.state.processOf? r) := by
      rw [State.processOf?,processes]
      exact outlives_self _
    rw [Life.sight,Life.sight,sent,works]
    exact .pass _ _ _ (.inl rfl) outlives (.inr ⟨_,_,going,.inl rfl⟩)

/-! ### Every step is a move -/

theorem taskWorks_set {tasks : List Task} {number : Nat} {task : Task} (here : tasks[number]? = some task) (next : Task) :
    ∃ others, taskWorks tasks = taskWorks (task :: others) ∧ taskWorks (tasks.set number next) = taskWorks (next :: others) := by
  obtain ⟨inside,rfl⟩ := List.getElem?_eq_some_iff.mp here
  have perm (l l' : List Task) (same : l.Perm l') : taskWorks l = taskWorks l' :=
    Multiset.coe_eq_coe.mpr ((same.filterMap _).map _)
  exact ⟨tasks.eraseIdx number,perm _ _ (List.getElem_cons_eraseIdx_perm inside).symm,
    perm _ _ (List.set_perm_cons_eraseIdx inside next)⟩

theorem taskWorks_teardown (number : Nat) (phase : Teardown) (tasks : List Task) :
    taskWorks (.teardown number phase :: tasks) = some phase ::ₘ taskWorks tasks := rfl

theorem taskWorks_spawn (tasks : List Task) (task : Task) : taskWorks (tasks ++ [task]) = taskWorks (task :: tasks) :=
  Multiset.coe_eq_coe.mpr (((List.perm_append_singleton task tasks).filterMap _).map _)

theorem Teardown.Minds.of_none (minds : phase.Minds none) (process : Option Nat) : phase.Minds process := by
  cases phase with
  | terminating => cases minds
  | _ => trivial

theorem Task.Minds.of_none {task : Task} (minds : task.Minds run none) (process : Option Nat) : task.Minds run process := by
  cases task with
  | watch => cases minds.2
  | teardown number phase => exact ⟨minds.1,minds.2.of_none process⟩
  | retirement => exact minds
  | _ => trivial

namespace Life

theorem Has.hasBegun (has : w.Has run r) (started : r.stage ≠ .new) : w.hasBegun = true := by
  by_contra fresh
  exact started (has.fresh (by simpa using fresh)).1

/-- The run goes on with the process that it has. -/
theorem Has.stays (has : w.Has run r) (here : w'.state.runs[run]? = some r') (begun : w'.hasBegun = true)
    (started : r'.stage ≠ .new) (process : r'.process = r.process)
    (length : w'.state.processes.length = w.state.processes.length)
    (tasks : ∀ task ∈ w'.state.tasks, task ∈ w.state.tasks ∨ task.Minds run r.process)
    (destroyers : ∀ phase, Destroyer.tearing phase ∈ w'.destroyers →
      Destroyer.tearing phase ∈ w.destroyers ∨ phase.Minds r.process) : w'.Has run r' where
  here := here
  fresh := fun new => absurd (begun.symm.trans new) nofun
  begun := fun _ => started
  process := by
    intro number named
    rw [length]
    exact has.process number (process.symm.trans named)
  tasks := fun task member => process ▸ (tasks task member).elim (has.tasks task) id
  destroyers := fun phase member => process ▸ (destroyers phase member).elim (has.destroyers phase) id

theorem sight_eq {process : Option Encoder.Process} {works : Multiset (Option Teardown)}
    (shows : w.state.processOf? r = process) (does : w.works = works) :
    w.sight r = ⟨r.stage,r.isDestroyed,process,w.sent,works⟩ := by rw [sight,shows,does]

theorem Step.move_start {t : State} (has : w.Has run r) (new : w.hasBegun = false) (launched : w.state.launch run = .ok t) :
    ∃ r', Has run { w with state := t, hasBegun := true } r' ∧
      (w.sight r).Move (sight { w with state := t, hasBegun := true } r') := by
  obtain ⟨stage,absent⟩ := has.fresh new
  rw [State.launch] at launched
  cases failure : w.state.script.failure with
  | some why => simp [failure] at launched
  | none =>
    simp only [failure,Except.ok.injEq] at launched
    subst launched
    let number := w.state.processes.length
    have old (task : Task) (member : task ∈ w.state.tasks) (process : Option Nat) : task.Minds run process :=
      Task.Minds.of_none (absent ▸ has.tasks task member) process
    refine ⟨{ r.produce 0 w.state.script.produces with process := some number, stage := .running },?has,?move⟩
    case has =>
      refine ⟨?_,nofun,fun _ => nofun,?_,?_,?_⟩
      · rw [List.getElem?_modify_eq,has.here]
        rfl
      · intro other named
        obtain rfl := Option.some.inj named
        rw [List.length_append]
        exact Nat.lt_succ_self _
      · intro task member
        rcases List.mem_append.mp member with earlier | watch
        · exact old task earlier _
        · obtain rfl := List.mem_singleton.mp watch
          exact ⟨rfl,rfl⟩
      · exact fun phase member => Teardown.Minds.of_none (absent ▸ has.destroyers phase member) _
    case move =>
      have process : (w.state.processes ++ [w.state.script.process])[number]? = some w.state.script.process :=
        List.getElem?_concat_length
      have works : taskWorks (w.state.tasks ++ [.watch run number]) = taskWorks w.state.tasks := taskWorks_spawn ..
      have seen := Sight.Move.start (x := w.sight r) w.state.script.process stage
        (by rw [sight,State.processOf?,absent]; rfl) rfl rfl
      refine (congrArg (Sight.Move _) ?_).mp seen
      simp only [sight,State.processOf?,Option.bind_some,Life.works,State.spawn]
      rw [works,process,(State.job_produce r 0 w.state.script.produces).2]

theorem Step.move_fail (has : w.Has run r) (new : w.hasBegun = false) (fits : (w.sight r).Fits) :
    ∃ r', Has run { w with state := Teardown.noteExit w.state run, hasBegun := true } r' ∧
      (w.sight r).Move (sight { w with state := Teardown.noteExit w.state run, hasBegun := true } r') := by
  have free : w.sent = none := by
    cases held : w.sent with
    | none => rfl
    | some pause =>
      have before : r.stage = stageBefore pause := (fits.sent pause held).1
      rw [(has.fresh new).1] at before
      cases pause <;> cases before
  refine ⟨{ r with stage := .exited },?has,.pass _ _ _ (.inr ⟨rfl,.inl free⟩) (outlives_self _) (.inl rfl)⟩
  exact ⟨run_onRun has.here _,nofun,fun _ => nofun,has.process,has.tasks,has.destroyers⟩

theorem Step.move_send {t : State} {pause : Bool} (has : w.Has run r) (free : w.sent = none)
    (arrived : w.state.send? run pause = some t) :
    Has run { w with state := t, sent := some pause } r ∧
      (w.sight r).Move (sight { w with state := t, sent := some pause } r) := by
  rw [State.send?,has.here,Option.bind_some] at arrived
  by_cases before : r.stage = stageBefore pause
  · rw [if_pos before,State.signal?] at arrived
    simp only [Option.bind_eq_bind,Option.bind_eq_some_iff,Option.some.injEq] at arrived
    obtain ⟨number,named,q,found,q',sent,rfl⟩ := arrived
    have same : q' = { q with isPaused := pause } := by
      rw [Encoder.Process.signal?] at sent
      split_ifs at sent
      exact (Option.some.inj sent).symm
    obtain ⟨inside,_⟩ := List.getElem?_eq_some_iff.mp found
    have started : r.stage ≠ .new := by
      intro new
      rw [new] at before
      cases pause <;> cases before
    have earlier : w.state.processOf? r = some q := by rw [State.processOf?,named,Option.bind_some,found]
    have later : (w.state.processes.set number q')[number]? = some { q with isPaused := pause } := by
      rw [List.getElem?_set_self inside,same]
    refine ⟨has.stays has.here (has.hasBegun started) started rfl (List.length_set ..) (fun _ => .inl) fun _ => .inl,?_⟩
    have move : (w.sight r).Move { w.sight r with process := some { q with isPaused := pause }, sent := some pause } :=
      .send pause q free before earlier
    simp only [sight,State.processOf?,named,Option.bind_some,later] at move ⊢
    exact move
  · rw [if_neg before] at arrived
    cases arrived

theorem Step.move_note {pause : Bool} (has : w.Has run r) (fits : (w.sight r).Fits) (holds : w.sent = some pause) :
    ∃ r', Has run { w with state := w.state.noteSignal run pause, sent := none } r' ∧
      (w.sight r).Move (sight { w with state := w.state.noteSignal run pause, sent := none } r') := by
  have before : r.stage = stageBefore pause := (fits.sent pause holds).1
  have started : r.stage ≠ .new := by
    intro new
    rw [new] at before
    cases pause <;> cases before
  refine ⟨{ r with stage := stageAfter pause },?has,.note pause holds⟩
  refine has.stays (run_onRun has.here _) (has.hasBegun started) ?_ rfl rfl (fun _ => .inl) fun _ => .inl
  intro new
  cases pause <;> cases new

theorem Step.move_mark {isDetached : Bool} (has : w.Has run r) (begun : w.hasBegun = true)
    (first : w.state.isDestroyed run = false) :
    ∃ r', Has run { w with
        state := w.state.onRun run markRun, destroyers := .marking isDetached ::ₘ w.destroyers } r' ∧
      (w.sight r).Move (sight { w with
        state := w.state.onRun run markRun, destroyers := .marking isDetached ::ₘ w.destroyers } r') := by
  rw [State.isDestroyed,has.here] at first
  have started := has.begun begun
  refine ⟨markRun r,?has,?move⟩
  case has =>
    refine has.stays (run_onRun has.here _) begun started rfl rfl (fun _ => .inl) fun phase member => ?_
    exact .inl ((Multiset.mem_cons.mp member).resolve_left fun same => by cases same)
  case move =>
    have works : Life.works { w with
        state := w.state.onRun run markRun, destroyers := .marking isDetached ::ₘ w.destroyers } =
        none ::ₘ w.works := by
      rw [Life.works,Multiset.map_cons,Multiset.cons_add]
      rfl
    exact (congrArg (Sight.Move _) (sight_eq rfl works)).mpr (.mark started first)

/-- Who has work on the destruction of a run minds one that has begun. -/
theorem Has.started {work : Option Teardown} {others : Multiset (Option Teardown)} (has : w.Has run r)
    (fits : (w.sight r).Fits) (going : w.works = work ::ₘ others) : r.stage ≠ .new ∧ w.hasBegun = true := by
  have started : r.stage ≠ .new := fun new => absurd ((fits.marked going).symm.trans (fits.new new)) nofun
  exact ⟨started,has.hasBegun started⟩

theorem Step.move_stop {others : Multiset Destroyer} {isDetached : Bool} (has : w.Has run r) (fits : (w.sight r).Fits)
    (going : w.destroyers = .marking isDetached ::ₘ others) (free : w.sent = none)
    (here : w'.state.runs = (w.state.onRun run stopRun).runs) (processes : w'.state.processes = w.state.processes)
    (begun : w'.hasBegun = w.hasBegun) (sent : w'.sent = w.sent)
    (tasks : ∀ task ∈ w'.state.tasks, task ∈ w.state.tasks ∨ task = .teardown run .start)
    (destroyers : ∀ phase, Destroyer.tearing phase ∈ w'.destroyers → Destroyer.tearing phase ∈ w.destroyers ∨ phase = .start)
    (works : w'.works = some .start ::ₘ (others.map Destroyer.phase? + taskWorks w.state.tasks)) :
    ∃ r', w'.Has run r' ∧ (w.sight r).Move (w'.sight r') := by
  have before : w.works = none ::ₘ (others.map Destroyer.phase? + taskWorks w.state.tasks) := by
    rw [Life.works,going,Multiset.map_cons,Multiset.cons_add]
    rfl
  obtain ⟨started,old⟩ := has.started fits before
  refine ⟨stopRun r,?has,?move⟩
  case has =>
    refine has.stays (here ▸ run_onRun has.here stopRun) (begun.trans old) ?_ rfl (congrArg _ processes) (fun task member => ?_)
      fun phase member => ?_
    · intro new
      simp only [stopRun] at new
      split_ifs at new
    · refine (tasks task member).imp_right ?_
      rintro rfl
      exact ⟨rfl,trivial⟩
    · refine (destroyers phase member).imp_right ?_
      rintro rfl
      trivial
  case move =>
    have process : w'.state.processOf? (stopRun r) = w.state.processOf? r := by
      rw [State.processOf?,processes]
      rfl
    rw [sight_eq process works,sent]
    exact .stop _ before free

theorem Step.move_tear {t : State} {others : Multiset Destroyer} {phase : Teardown} {after : Option Teardown}
    (has : w.Has run r) (fits : (w.sight r).Fits) (going : w.destroyers = .tearing phase ::ₘ others)
    (tears : Tears run w.state r phase t r' after) (permitted : w.Permits run t) :
    Has run { w with state := t, destroyers := after.elim others (.tearing · ::ₘ others) } r' ∧
      (w.sight r).Move (sight { w with
        state := t, destroyers := after.elim others (.tearing · ::ₘ others) } r') := by
  have before : w.works = some phase ::ₘ (others.map Destroyer.phase? + taskWorks w.state.tasks) := by
    rw [Life.works,going,Multiset.map_cons,Multiset.cons_add]
    rfl
  obtain ⟨started,begun⟩ := has.started fits before
  have works : Life.works { w with state := t, destroyers := after.elim others (.tearing · ::ₘ others) } =
      after.elim (others.map Destroyer.phase? + taskWorks w.state.tasks)
        (some · ::ₘ (others.map Destroyer.phase? + taskWorks w.state.tasks)) := by
    rw [Life.works,tears.tasks]
    cases after with
    | none => rfl
    | some next => exact (congrArg (· + _) (Multiset.map_cons ..)).trans (Multiset.cons_add ..)
  refine ⟨has.stays (tears.here has.here) begun (tears.begun started) tears.process tears.length
    (fun task member => .inl (tears.tasks ▸ member)) (fun other member => ?_),tears.move has before permitted rfl rfl works⟩
  have old (here : Destroyer.tearing other ∈ others) : Destroyer.tearing other ∈ w.destroyers :=
    going ▸ Multiset.mem_cons_of_mem here
  cases after with
  | none => exact .inl (old member)
  | some next =>
    obtain same | here := Multiset.mem_cons.mp member
    · obtain rfl := Destroyer.tearing.inj same
      exact .inr (tears.process ▸ tears.minds)
    · exact .inl (old here)

theorem Permits.exits {t : State} (permitted : w.Permits run t) (has : w.Has run r)
    (ended : t.runs[run]? = some { r with stage := .exited }) : w.sent = none ∨ r.stage = .exited := by
  refine permitted.imp_right fun kept => ?_
  rw [ended,has.here] at kept
  exact (Option.some.inj kept).symm

/-- The end of the process is noted by who has waited for it. -/
theorem Step.move_watch {number watched : Nat} (has : w.Has run r) (here : w.state.tasks[number]? = some (.watch run watched))
    (permitted : w.Permits run (Teardown.noteExit w.state run)) :
    ∃ r', Has run { w with state := { Teardown.noteExit w.state run with
        tasks := w.state.tasks.set number (.over false) } } r' ∧
      (w.sight r).Move (sight { w with state := { Teardown.noteExit w.state run with
        tasks := w.state.tasks.set number (.over false) } } r') := by
  have process : r.process = some watched := (has.tasks _ (List.mem_of_getElem? here)).2
  have begun : w.hasBegun = true := by
    by_contra fresh
    exact absurd ((has.fresh (by simpa using fresh)).2.symm.trans process) nofun
  obtain ⟨others,before,after⟩ := taskWorks_set here (.over false)
  have works : Life.works { w with state := { Teardown.noteExit w.state run with
      tasks := w.state.tasks.set number (.over false) } } = w.works := by
    rw [Life.works,Life.works,before,after]
    rfl
  have ended := run_onRun has.here fun r => { r with stage := .exited }
  refine ⟨{ r with stage := .exited },?has,?move⟩
  case has =>
    refine has.stays ended begun nofun rfl rfl (fun task member => ?_) fun _ => .inl
    refine (List.mem_or_eq_of_mem_set member).imp_right ?_
    rintro rfl
    trivial
  case move =>
    refine (congrArg (Sight.Move _) (sight_eq rfl works)).mpr ?_
    exact .pass _ _ _ (.inr ⟨rfl,permitted.exits has ended⟩) (outlives_self _) (.inl rfl)

theorem Step.move_teardown {t : State} {number of : Nat} {phase : Teardown} {after : Option Teardown}
    (has : w.Has run r) (fits : (w.sight r).Fits) (here : w.state.tasks[number]? = some (.teardown of phase))
    (tears : Tears run w.state r phase t r' after) (permitted : w.Permits run t) :
    Has run { w with state := { t with tasks := t.tasks.set number (after.elim (.over false) (.teardown run)) } } r' ∧
      (w.sight r).Move (sight { w with
        state := { t with tasks := t.tasks.set number (after.elim (.over false) (.teardown run)) } } r') := by
  obtain ⟨others,old,new⟩ := taskWorks_set here (after.elim (.over false) (.teardown run))
  have before : w.works = some phase ::ₘ (w.destroyers.map Destroyer.phase? + taskWorks others) := by
    rw [Life.works,old,taskWorks_teardown,Multiset.add_cons]
  obtain ⟨started,begun⟩ := has.started fits before
  have works : Life.works { w with
      state := { t with tasks := t.tasks.set number (after.elim (.over false) (.teardown run)) } } =
      after.elim (w.destroyers.map Destroyer.phase? + taskWorks others)
        (some · ::ₘ (w.destroyers.map Destroyer.phase? + taskWorks others)) := by
    rw [Life.works,tears.tasks,new]
    cases after with
    | none => rfl
    | some next => exact (congrArg (_ + ·) (taskWorks_teardown run next others)).trans (Multiset.add_cons ..)
  refine ⟨has.stays (tears.here has.here) begun (tears.begun started) tears.process tears.length (fun task member => ?_)
    (fun _ => .inl),tears.move has before permitted rfl rfl works⟩
  rw [tears.tasks] at member
  refine (List.mem_or_eq_of_mem_set member).imp_right ?_
  rintro rfl
  cases after with
  | none => trivial
  | some next => exact ⟨rfl,tears.process ▸ tears.minds⟩

theorem Step.move_task {t : State} {number : Nat} (has : w.Has run r) (fits : (w.sight r).Fits)
    (turned : w.state.taskTurn? w.clock number = some t) (permitted : w.Permits run t) :
    ∃ r', Has run { w with state := t } r' ∧ (w.sight r).Move (sight { w with state := t } r') := by
  rw [State.taskTurn?,Option.bind_eq_bind,Option.bind_eq_some_iff] at turned
  obtain ⟨task,here,turned⟩ := turned
  have minds := has.tasks task (List.mem_of_getElem? here)
  cases task with
  | watch other watched =>
    obtain ⟨rfl,_⟩ := minds
    rw [Task.turn] at turned
    split_ifs at turned
    cases turned
    exact move_watch has here permitted
  | teardown other phase =>
    obtain ⟨rfl,_⟩ := minds
    have tears := tears_of_turn has.here w.clock phase
    rw [Task.turn] at turned
    cases turn : phase.turn w.clock other w.state with
    | blocked wake => simp [turn,Turn.within] at turned
    | goesOn u next =>
      rw [turn] at tears turned
      obtain ⟨r',tears⟩ := tears
      cases turned
      exact ⟨r',move_teardown has fits here tears permitted⟩
    | ends u =>
      rw [turn] at tears turned
      obtain ⟨r',tears⟩ := tears
      cases turned
      exact ⟨r',move_teardown has fits here tears permitted⟩
  | retirement => exact minds.elim
  | _ => cases turned

theorem Step.move_happen (has : w.Has run r) (event : Event) :
    ∃ r', Has run { w with state := event.apply w.state } r' ∧
      (w.sight r).Move (sight { w with state := event.apply w.state } r') := by
  have stays {t : State} {r' : Run} (here : t.runs[run]? = some r')
      (same : r'.stage = r.stage ∧ r'.isDestroyed = r.isDestroyed ∧ r'.process = r.process)
      (tasks : t.tasks = w.state.tasks) (length : t.processes.length = w.state.processes.length)
      (outlives : Option.Rel Outlives (t.processOf? r) (w.state.processOf? r)) :
      ∃ r', Has run { w with state := t } r' ∧ (w.sight r).Move (sight { w with state := t } r') := by
    obtain ⟨stage,destroyed,process⟩ := same
    refine ⟨r',⟨here,?_,?_,?_,?_,?_⟩,?_⟩
    · exact fun new => (has.fresh new).imp stage.trans process.trans
    · exact fun begun new => has.begun begun (stage.symm.trans new)
    · exact fun number named => length ▸ has.process number (process.symm.trans named)
    · exact process ▸ tasks ▸ has.tasks
    · exact process ▸ has.destroyers
    · have shows : State.processOf? t r' = t.processOf? r := by rw [State.processOf?,State.processOf?,process]
      have works : Life.works { w with state := t } = w.works := by rw [Life.works,Life.works,tasks]
      rw [sight_eq shows works,stage,destroyed]
      exact .pass _ _ _ (.inl rfl) outlives (.inl rfl)
  cases event with
  | exit process how =>
    refine stays has.here ⟨rfl,rfl,rfl⟩ rfl (List.length_modify ..)
      (outlives_modify (fun q => ?_) w.state.processes process r.process)
    exact ⟨rfl,rfl,fun _ => rfl⟩
  | refuseSignals process refuses =>
    refine stays has.here ⟨rfl,rfl,rfl⟩ rfl (List.length_modify ..)
      (outlives_modify (fun q => ?_) w.state.processes process r.process)
    exact ⟨rfl,rfl,id⟩
  | files other output =>
    by_cases same : other = run
    · subst same
      exact stays (run_onRun has.here _) ⟨rfl,rfl,rfl⟩ rfl rfl (outlives_self _)
    · have here : (Event.apply w.state (.files other output)).runs[run]? = some r :=
        (List.getElem?_modify_ne _ _ same).trans has.here
      exact stays here ⟨rfl,rfl,rfl⟩ rfl rfl (outlives_self _)
  | script next => exact stays has.here ⟨rfl,rfl,rfl⟩ rfl rfl (outlives_self _)
  | blockRoot isBlocked => exact stays has.here ⟨rfl,rfl,rfl⟩ rfl rfl (outlives_self _)
  | failDirectories why => exact stays has.here ⟨rfl,rfl,rfl⟩ rfl rfl (outlives_self _)
  | failRemovals fails => exact stays has.here ⟨rfl,rfl,rfl⟩ rfl rfl (outlives_self _)

theorem Step.move (step : Step run w w') (has : w.Has run r) (fits : (w.sight r).Fits) :
    ∃ r', w'.Has run r' ∧ (w.sight r).Move (w'.sight r') := by
  cases step with
  | start new launched => exact move_start has new launched
  | fail new failed => exact move_fail has new fits
  | send pause free arrived => exact ⟨r,move_send has free arrived⟩
  | note pause holds => exact move_note has fits holds
  | mark isDetached begun first => exact move_mark has begun first
  | stop others going free =>
    refine move_stop has fits going free rfl rfl rfl rfl (fun _ => .inl) (fun phase member => ?_) ?_
    · obtain same | here := Multiset.mem_cons.mp member
      · exact .inr (Destroyer.tearing.inj same)
      · exact .inl (going ▸ Multiset.mem_cons_of_mem here)
    · exact (congrArg (· + _) (Multiset.map_cons ..)).trans (Multiset.cons_add ..)
  | stopDetached others going free =>
    refine move_stop has fits going free rfl rfl rfl rfl (fun task member => ?_) (fun phase member => ?_) ?_
    · exact (List.mem_append.mp member).imp_right List.mem_singleton.mp
    · exact .inl (going ▸ Multiset.mem_cons_of_mem member)
    · rw [Life.works,State.spawn,taskWorks_spawn,taskWorks_teardown,Multiset.add_cons]
      rfl
  | @tear t phase next others going turned permitted =>
    have tears := tears_of_turn has.here w.clock phase
    rw [turned] at tears
    obtain ⟨r',tears⟩ := tears
    exact ⟨r',move_tear has fits going tears permitted⟩
  | @torn t phase others going turned permitted =>
    have tears := tears_of_turn has.here w.clock phase
    rw [turned] at tears
    obtain ⟨r',tears⟩ := tears
    exact ⟨r',move_tear has fits going tears permitted⟩
  | task number turned permitted => exact move_task has fits turned permitted
  | happen event => exact move_happen has event
  | wait clock =>
    exact ⟨r,⟨has.here,has.fresh,has.begun,has.process,has.tasks,has.destroyers⟩,
      .pass _ _ _ (.inl rfl) (outlives_self _) (.inl rfl)⟩

/-! ### Whole lives -/

/-- A run that is there, of which all that is seen fits together. -/
def Goes (run : Nat) (w : Life) (r : Run) : Prop := w.Has run r ∧ (w.sight r).Fits

theorem goes_created {s : State} {clock : Clock} {job : Encoder.Job} (here : s.runs[run]? = some { job })
    (idle : s.tasks = []) : Goes run (created s clock) { job } := by
  have works : (created s clock).works = 0 := by
    rw [Life.works,created,idle]
    rfl
  refine ⟨⟨here,fun _ => ⟨rfl,rfl⟩,nofun,nofun,?_,nofun⟩,?_⟩
  · intro task member
    rw [created,idle] at member
    cases member
  · have unlaunched : (created s clock).state.processOf? { job } = none := rfl
    rw [sight_eq unlaunched works]
    refine ⟨fun _ => rfl,Nat.zero_le 1,fun _ => rfl,fun stopped => absurd stopped.1 nofun,nofun,?_,nofun,nofun⟩
    intro pause _ after
    cases pause <;> cases after

theorem Reachable.goes (reachable : w.Reachable run) : ∃ r, w.Goes run r := by
  obtain ⟨s,clock,job,here,idle,history⟩ := reachable
  induction history with
  | refl => exact ⟨_,goes_created here idle⟩
  | tail _ step ih =>
    obtain ⟨r,has,fits⟩ := ih
    obtain ⟨r',has',move⟩ := step.move has fits
    exact ⟨r',has',move.fits fits⟩

/-- What no move takes away stays for the rest of the life. -/
theorem Goes.keeps {P : Sight → Prop} (kept : ∀ x y : Sight, x.Move y → x.Fits → P x → P y) (goes : w.Goes run r)
    (holds : P (w.sight r)) (later : Relation.ReflTransGen (Step run) w w') : ∃ r', w'.Goes run r' ∧ P (w'.sight r') := by
  induction later with
  | refl => exact ⟨r,goes,holds⟩
  | tail _ step ih =>
    obtain ⟨r',⟨has,fits⟩,holds⟩ := ih
    obtain ⟨r'',has',move⟩ := step.move has fits
    exact ⟨r'',⟨has',move.fits fits⟩,kept _ _ move fits holds⟩

/-- The stage that is noted. -/
def stage (run : Nat) (w : Life) : Stage := ((w.state.runs[run]?).map (·.stage)).getD .exited

/-- The stage that shows. -/
def shown (run : Nat) (w : Life) : Stage := ((w.state.runs[run]?).map w.state.stageOf).getD .exited

/-- The process of the run. -/
def process? (run : Nat) (w : Life) : Option Encoder.Process := (w.state.runs[run]?).bind w.state.processOf?

/-- Whether the run was marked as destroyed by somebody who is done with that: one who comes later finds the mark and
    returns at once, maybe before the run is stopped. -/
def IsStopped (run : Nat) (w : Life) : Prop :=
  w.state.isDestroyed run = true ∧ ∀ isDetached, Destroyer.marking isDetached ∉ w.destroyers

/-- What holds of a life and of what comes after it. -/
structure IsOrderly (run : Nat) (w : Life) : Prop where
  /-- Every step leaves the stage as it is or takes it along an edge. -/
  edges : ∀ w', Step run w w' →
    w'.stage run = w.stage run ∨ StageEdge (w'.state.isDestroyed run) (w.stage run) (w'.stage run)
  exited : w.shown run = .exited → ∀ w', Relation.ReflTransGen (Step run) w w' → w'.shown run = .exited
  stopped : w.IsStopped run → ∀ w', Relation.ReflTransGen (Step run) w w' →
    w'.shown run ≠ .running ∧ w'.shown run ≠ .throttled
  /-- Whoever looks has the lock, so no signal is on its way. -/
  throttled : w.sent = none → w.shown run = .throttled → ∃ q, w.process? run = some q ∧ q.isPaused = true
  running : w.sent = none → w.shown run = .running → ∃ q, w.process? run = some q ∧ q.isPaused = false
  asked : ∀ q, w.process? run = some q → q.terminations ≤ 1

theorem shown_cases (r : Run) (s : State) : s.stageOf r = .exited ∨ s.stageOf r = r.stage := by
  rw [State.stageOf,Run.shown]
  split_ifs
  · exact .inl rfl
  · exact .inr rfl

theorem Has.shown_eq (has : w.Has run r) : w.shown run = w.state.stageOf r := by
  rw [shown,has.here]
  rfl

theorem Has.stage_eq (has : w.Has run r) : w.stage run = r.stage := by
  rw [stage,has.here]
  rfl

theorem Has.process?_eq (has : w.Has run r) : w.process? run = w.state.processOf? r := by
  rw [process?,has.here]
  rfl

theorem Has.isDestroyed_eq (has : w.Has run r) : w.state.isDestroyed run = r.isDestroyed := by
  rw [State.isDestroyed,has.here]

theorem Has.exited_iff (has : w.Has run r) : w.shown run = .exited ↔ (w.sight r).HasExited := by
  rw [has.shown_eq,State.stageOf,Run.shown,Sight.HasExited]
  cases process : w.state.processOf? r with
  | none => simp [sight,process]
  | some q =>
    by_cases ended : q.exit.isSome
    · simp [sight,process,ended,Encoder.Process.hasExited]
    · simp [sight,process,ended,Encoder.Process.hasExited]

theorem Has.isStopped_iff (has : w.Has run r) : w.IsStopped run ↔ (w.sight r).IsStopped := by
  rw [IsStopped,Sight.IsStopped,has.isDestroyed_eq]
  refine and_congr_right fun _ => ?_
  have tasks : none ∉ taskWorks w.state.tasks := by
    simp [taskWorks]
  simp only [sight,works,Multiset.mem_add,Multiset.mem_map,tasks,or_false,not_exists,not_and]
  constructor
  · rintro unmarked (isDetached | phase) member same
    · exact unmarked isDetached member
    · cases same
  · exact fun unmarked isDetached member => unmarked _ member rfl

/-- A run that is started right after its creation changes its stage along the edges alone, shows its end for good
    once it has shown it, does not show that it runs or is throttled once it is destroyed, shows what the last signal
    has made of its process, and is asked to terminate at most once. -/
theorem isOrderly_of_reachable (reachable : w.Reachable run) : w.IsOrderly run := by
  obtain ⟨r,has,fits⟩ := reachable.goes
  refine ⟨?edges,?exited,?stopped,?throttled,?running,?asked⟩
  case edges =>
    intro w' step
    obtain ⟨r',has',move⟩ := step.move has fits
    rw [has.stage_eq,has'.stage_eq,has'.isDestroyed_eq]
    exact move.edge fits
  case exited =>
    intro shows w' later
    obtain ⟨r',⟨has',_⟩,exited⟩ := Goes.keeps (fun _ _ => Sight.Move.hasExited) ⟨has,fits⟩ (has.exited_iff.mp shows) later
    exact has'.exited_iff.mpr exited
  case stopped =>
    intro stopped w' later
    obtain ⟨r',⟨has',fits'⟩,stopped'⟩ :=
      Goes.keeps (fun _ _ move _ => move.isStopped) ⟨has,fits⟩ (has.isStopped_iff.mp stopped) later
    rw [has'.shown_eq]
    have stage : r'.stage = .stopping ∨ r'.stage = .exited := fits'.stopped stopped'
    rcases shown_cases r' w'.state with shows | shows <;> rw [shows]
    · exact ⟨nofun,nofun⟩
    · rcases stage with stage | stage <;> rw [stage] <;> exact ⟨nofun,nofun⟩
  case throttled =>
    intro free shows
    rw [has.shown_eq] at shows
    have stage : r.stage = .throttled := ((shown_cases r w.state).resolve_left (by rw [shows]; nofun)).symm.trans shows
    exact has.process?_eq ▸ fits.noted true free stage
  case running =>
    intro free shows
    rw [has.shown_eq] at shows
    have stage : r.stage = .running := ((shown_cases r w.state).resolve_left (by rw [shows]; nofun)).symm.trans shows
    exact has.process?_eq ▸ fits.noted false free stage
  case asked => exact fun q here => fits.asked q (has.process?_eq.symm.trans here)

/-- A job of one segment. -/
def firstJob : Encoder.Job := (⟨0,⟨film,.copied film,[0]⟩,"film.mkv",0⟩ : Order).job default 0

theorem run_is_throttled_and_stopped :
    (∃ w : Life, w.Reachable 0 ∧ w.shown 0 = .throttled ∧ ∃ q, w.process? 0 = some q ∧ q.isPaused = true) ∧
    ∃ w : Life, w.Reachable 0 ∧ w.shown 0 = .stopping ∧ w.IsStopped 0 ∧
      ∀ w', Relation.ReflTransGen (Step 0) w w' → w'.shown 0 ≠ .running ∧ w'.shown 0 ≠ .throttled := by
  have made : Relation.ReflTransGen (Step 0) (created { runs := [{ job := firstJob }] } ⟨0,0⟩) _ := .refl
  have started := made.tail (.start rfl rfl)
  have sent := started.tail (.send true rfl rfl)
  have throttled := sent.tail (.note true rfl)
  have marked := throttled.tail (.mark false rfl rfl)
  have stopped := marked.tail (.stop 0 rfl rfl)
  have unmarked : ∀ isDetached, Destroyer.marking isDetached ∉ ({.tearing .start} : Multiset Destroyer) := by simp
  refine ⟨⟨_,⟨_,_,_,rfl,rfl,throttled⟩,rfl,?_⟩,⟨_,⟨_,_,_,rfl,rfl,stopped⟩,rfl,⟨rfl,unmarked⟩,?_⟩⟩
  · exact (isOrderly_of_reachable ⟨_,_,_,rfl,rfl,throttled⟩).throttled rfl rfl
  · exact (isOrderly_of_reachable ⟨_,_,_,rfl,rfl,stopped⟩).stopped ⟨rfl,unmarked⟩

end Life

end Playout.Playback
