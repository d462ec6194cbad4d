import Playout.Playback.Await
import Playout.Proofs.Representation.Tiling

/-!
Waiting for a file. The call looks at its run, waits and looks again, and others act before each of its turns; while it
waits the clock goes on to the end of its pause. Of a history that takes nothing back (`IsMonotone`) it misses nothing
that is there by the deadline, and it is over by then.
-/
namespace Playout.Playback

/-- A call that waits for a file, and what happens meanwhile. -/
structure Waiting where
  lease : Lease
  request : SegmentRequest
  /-- For how long it waits, in milliseconds. -/
  timeout : Nat
  /-- When it begins. -/
  clock : Clock
  state : State
  /-- What others make of the state before the `n`-th turn of the call. -/
  others : Nat → State → State

/-- The state and the time at a turn of a call, and where the call stands or what it came to. -/
structure Moment where
  state : State
  clock : Clock
  stand : Await ⊕ Result ReadyFile

/-- Whether the run is to be looked at in this turn. -/
def Moment.looks (m : Moment) : Bool :=
  match m.stand with
  | .inl (.looking ..) => true
  | _ => false

/-- What a listing of the directory of a run shows in `t`, when it is known from `s` whether the run has exited. -/
def State.listing? (run : Nat) (s t : State) : Option Available :=
  (t.runs[run]?).bind fun r => r.available? (s.hasExited run)

/-- The file that a request asks for in such a listing. -/
def State.shown? (run : Nat) (request : SegmentRequest) (s t : State) : Option String :=
  (State.listing? run s t).bind (Await.file? request)

/-- A history that takes nothing back: a run that is destroyed stays so, it can be listed before, and a file that has been
    listed is in all later listings before. -/
structure IsMonotone (run : Nat) (request : SegmentRequest) (history : Nat → State) : Prop where
  destroyed (n : Nat) : (history n).isDestroyed run → (history (n + 1)).isDestroyed run
  listable (i n : Nat) : (history n).isDestroyed run = false → (State.listing? run (history i) (history n)).isSome
  listed {i j i' j' : Nat} : i ≤ j → i' ≤ j' → i ≤ i' → j ≤ j' →
    (State.shown? run request (history i) (history j)).isSome → (history j').isDestroyed run = false →
    (State.shown? run request (history i') (history j')).isSome

namespace Waiting

variable (w : Waiting)

/-- What a turn of the call makes of a moment; if the call is blocked the clock goes on until it is not. -/
def turn (m : Moment) : Moment :=
  match m.stand with
  | .inr _ => m
  | .inl phase =>
    match phase.turn m.clock w.lease w.request w.timeout m.state with
    | .blocked wake => { m with clock := { m.clock with millis := wake.getD m.clock.millis } }
    | .goesOn state next => ⟨state,m.clock,.inl next⟩
    | .ends state result => ⟨state,m.clock,.inr result⟩

/-- The `n`-th turn of the call. -/
def moment : Nat → Moment
  | 0 => ⟨w.others 0 w.state,w.clock,.inl .begin⟩
  | n + 1 => { w.turn (moment n) with state := w.others (n + 1) (w.turn (moment n)).state }

/-- The state at a turn. -/
def seen (n : Nat) : State := (w.moment n).state

/-- The time of a turn. -/
def time (n : Nat) : Nat := (w.moment n).clock.millis

def deadline : Nat := w.clock.millis + w.timeout

/-- The call looks at the run in its `n`-th turn. -/
def Looks (n : Nat) : Prop := (w.moment n).looks = true

instance (n : Nat) : Decidable (w.Looks n) := instDecidableEqBool _ true

/-- How often the run is looked at before a turn. -/
def looks (n : Nat) : Nat := (List.range n).countP fun i => (w.moment i).looks

/-- The listing after a look. -/
def listing? (run n : Nat) : Option Available := State.listing? run (w.seen n) (w.seen (n + 1))

/-- The file that is asked for in the listing after a look. -/
def shown? (run n : Nat) : Option String := (w.listing? run n).bind (Await.file? w.request)

/-- A look at a run that is not destroyed, with the file in the listing. -/
def Finds (run n : Nat) : Prop := (w.seen n).isDestroyed run = false ∧ (w.shown? run n).isSome

/-- A look at a run that is there, with no file in the listing, after which a throttled run is told to go on. -/
structure Misses (run n : Nat) : Prop where
  live : (w.seen n).isDestroyed run = false
  listed : (w.listing? run n).isSome
  absent : w.shown? run n = none
  resumed : (w.turn (w.moment (n + 2))).state =
    if (w.seen (n + 2)).isThrottled run then ((w.seen (n + 2)).resume run).1 else w.seen (n + 2)

/-- The call is over at a turn, with a result that is right. -/
structure Ends (run n : Nat) (result : Result ReadyFile) : Prop where
  ended : (w.moment n).stand = .inr result
  inTime : w.time n ≤ w.deadline
  fewLooks : w.looks n ≤ w.timeout / 100 + 2
  found_iff : (∃ file, result = .ok file) ↔ ∃ i < n, w.Looks i ∧ w.Finds run i
  file : ∀ file, result = .ok file →
    file.run = run ∧ ∃ i < n, w.Looks i ∧ w.listing? run i = some file.available ∧ w.shown? run i = some file.name
  /-- Nothing is missed that is there until the last look at the deadline. -/
  missesNothing : ∀ m, (∀ i < m, w.Looks i → w.time i < w.deadline) →
    (State.shown? run w.request (w.seen m) (w.seen m)).isSome → (w.seen (max m n)).isDestroyed run = false →
    ∃ file, result = .ok file
  timedOut : result = .error (.segmentTimeout w.request.text) →
    w.time n = w.deadline ∧ ∃ i < n, w.Looks i ∧ w.time i = w.deadline ∧ w.shown? run i = none
  destroyed : ∀ i < n, w.Looks i → (w.seen i).isDestroyed run ∨ w.listing? run i = none →
    result = .error (.segmentNotFound w.request.text)
  error : ∀ e, result = .error e → e = .segmentTimeout w.request.text ∨
    e = .segmentNotFound w.request.text ∧ ∃ i < n, (w.seen i).isDestroyed run
  resumed : ∀ i < n, w.Looks i → (w.seen i).isDestroyed run = false → (w.listing? run i).isSome →
    w.shown? run i = none → w.Misses run i

/-! ### One look -/

variable {w} {run n deadline pause : Nat}

theorem Misses.not_finds (misses : w.Misses run n) : ¬ w.Finds run n := fun finds => by
  have shown := finds.2
  rw [misses.absent] at shown
  cases shown

theorem Misses.not_blind (misses : w.Misses run n) : ¬ ((w.seen n).isDestroyed run ∨ w.listing? run n = none) := by
  rintro (gone | lost)
  · simp [misses.live] at gone
  · have listed := misses.listed
    rw [lost] at listed
    cases listed

theorem turn_of_goesOn {m : Moment} {phase next : Await} {s : State} (stand : m.stand = .inl phase)
    (turned : phase.turn m.clock w.lease w.request w.timeout m.state = .goesOn s next) :
    w.turn m = ⟨s,m.clock,.inl next⟩ := by
  rw [turn,stand]
  dsimp only
  rw [turned]

theorem turn_of_ends {m : Moment} {phase : Await} {s : State} {result : Result ReadyFile} (stand : m.stand = .inl phase)
    (turned : phase.turn m.clock w.lease w.request w.timeout m.state = .ends s result) :
    w.turn m = ⟨s,m.clock,.inr result⟩ := by
  rw [turn,stand]
  dsimp only
  rw [turned]

theorem turn_of_blocked {m : Moment} {phase : Await} {wake : Nat} (stand : m.stand = .inl phase)
    (turned : phase.turn m.clock w.lease w.request w.timeout m.state = .blocked (some wake)) :
    w.turn m = { m with clock := { m.clock with millis := wake } } := by
  rw [turn,stand]
  dsimp only
  rw [turned]
  rfl

/-- What a call comes to by the last look that it takes. -/
inductive Outcome (w : Waiting) (run n m : Nat) : Result ReadyFile → Prop
  | gone (gone : ∃ i < m, (w.seen i).isDestroyed run) (blind : (w.seen n).isDestroyed run ∨ w.listing? run n = none) :
      Outcome w run n m (.error (.segmentNotFound w.request.text))
  | found (live : (w.seen n).isDestroyed run = false) {file : ReadyFile} (by_run : file.run = run)
      (listed : w.listing? run n = some file.available) (shown : w.shown? run n = some file.name) :
      Outcome w run n m (.ok file)
  | late (misses : w.Misses run n) (late : w.deadline ≤ w.time n) :
      Outcome w run n m (.error (.segmentTimeout w.request.text))

/-- What comes after a look: the call is over, or it looks again. -/
inductive Look (w : Waiting) (run n pause : Nat) : Prop
  | ended {m : Nat} (after : n < m) (only : ∀ i, n < i → i < m → ¬ w.Looks i) (time : w.time m = w.time n)
      {result : Result ReadyFile} (ended : (w.moment m).stand = .inr result) (outcome : w.Outcome run n m result)
  | again (only : ∀ i, n < i → i < n + 5 → ¬ w.Looks i) (misses : w.Misses run n) (early : w.time n < w.deadline)
      (time : w.time (n + 5) = min (w.time n + pause) w.deadline)
      (next : (w.moment (n + 5)).stand = .inl (.looking w.deadline (min (2 * pause) longestPause)))

theorem not_looks_of_stand {phase : Await ⊕ Result ReadyFile} (stand : (w.moment n).stand = phase)
    (other : ∀ deadline pause, phase ≠ .inl (.looking deadline pause)) : ¬ w.Looks n := by
  unfold Looks Moment.looks
  rw [stand]
  split
  · exact absurd rfl (other _ _)
  · nofun

/-- A look at a run that is not destroyed leads to a listing. -/
theorem listed_of_live (bound : w.lease.run = some run) (stand : (w.moment n).stand = .inl (.looking deadline pause))
    (live : (w.seen n).isDestroyed run = false) :
    (∃ hasExited, (w.moment (n + 1)).stand = .inl (.listing deadline pause hasExited)) ∧
      (w.moment (n + 2)).stand = .inl (.listed deadline pause (w.listing? run n)) ∧
      (w.moment (n + 2)).clock = (w.moment n).clock := by
  have looked : w.turn (w.moment n) =
      ⟨w.seen n,(w.moment n).clock,.inl (.listing deadline pause ((w.seen n).hasExited run))⟩ := by
    refine turn_of_goesOn stand ?_
    unfold Await.turn
    rw [bound]
    exact if_neg (Bool.eq_false_iff.mp live)
  have stand₁ : (w.moment (n + 1)).stand = .inl (.listing deadline pause ((w.seen n).hasExited run)) := by
    rw [moment,looked]
  have listed : w.turn (w.moment (n + 1)) =
      ⟨w.seen (n + 1),(w.moment (n + 1)).clock,.inl (.listed deadline pause (w.listing? run n))⟩ := by
    refine turn_of_goesOn stand₁ ?_
    unfold Await.turn
    rw [bound]
    rfl
  refine ⟨⟨_,stand₁⟩,?_,?_⟩
  · rw [moment,listed]
  · rw [moment,listed]
    dsimp only
    rw [moment,looked]

/-- After a pause the call looks again. -/
theorem looking_of_sleeping {wake : Nat} (bound : w.lease.run = some run)
    (stand : (w.moment n).stand = .inl (.sleeping wake deadline pause)) (early : w.time n < wake) :
    (∃ wake, (w.moment (n + 1)).stand = .inl (.sleeping wake deadline pause)) ∧
      (w.moment (n + 2)).stand = .inl (.looking deadline (min (2 * pause) longestPause)) ∧ w.time (n + 2) = wake := by
  have slept : w.turn (w.moment n) = { w.moment n with clock := { (w.moment n).clock with millis := wake } } := by
    refine turn_of_blocked stand ?_
    unfold Await.turn
    rw [bound]
    exact if_pos early
  have stand₁ : (w.moment (n + 1)).stand = .inl (.sleeping wake deadline pause) := by rw [moment,slept,stand]
  have time₁ : w.time (n + 1) = wake := by rw [time,moment,slept]
  have woken : w.turn (w.moment (n + 1)) =
      ⟨w.seen (n + 1),(w.moment (n + 1)).clock,.inl (.looking deadline (min (2 * pause) longestPause))⟩ := by
    refine turn_of_goesOn stand₁ ?_
    unfold Await.turn
    rw [bound]
    exact if_neg (Nat.not_lt_of_le (Nat.le_of_eq time₁.symm))
  refine ⟨⟨_,stand₁⟩,?_,?_⟩
  · rw [moment,woken]
  · rw [time,moment,woken]
    exact time₁

theorem ended_of_ends {available : Option Available} {s : State} {result : Result ReadyFile} (bound : w.lease.run = some run)
    (stand : (w.moment n).stand = .inl (.listed deadline pause available))
    (ends : Await.decide (w.moment n).clock run w.request (w.seen n) deadline pause available = .ends s result) :
    (w.turn (w.moment n)).state = s ∧ (w.moment (n + 1)).stand = .inr result ∧ w.time (n + 1) = w.time n := by
  have ended : w.turn (w.moment n) = ⟨s,(w.moment n).clock,.inr result⟩ := by
    refine turn_of_ends stand ?_
    unfold Await.turn
    rw [bound]
    exact ends
  refine ⟨by rw [ended],?_,?_⟩
  · rw [moment,ended]
  · rw [time,moment,ended]
    rfl

theorem sleeping_of_goesOn {available : Option Available} {s : State} {next : Await} (bound : w.lease.run = some run)
    (stand : (w.moment n).stand = .inl (.listed deadline pause available))
    (goesOn : Await.decide (w.moment n).clock run w.request (w.seen n) deadline pause available = .goesOn s next) :
    (w.turn (w.moment n)).state = s ∧ (w.moment (n + 1)).stand = .inl next ∧ w.time (n + 1) = w.time n := by
  have going : w.turn (w.moment n) = ⟨s,(w.moment n).clock,.inl next⟩ := by
    refine turn_of_goesOn stand ?_
    unfold Await.turn
    rw [bound]
    exact goesOn
  refine ⟨by rw [going],?_,?_⟩
  · rw [moment,going]
  · rw [time,moment,going]
    rfl

/-- Every look has one of these ends. -/
theorem look (bound : w.lease.run = some run) (monotone : IsMonotone run w.request w.seen)
    (stand : (w.moment n).stand = .inl (.looking w.deadline pause)) (pauses : 0 < pause) : w.Look run n pause := by
  by_cases gone : (w.seen n).isDestroyed run
  · have ended : w.turn (w.moment n) =
        ⟨w.seen n,(w.moment n).clock,.inr (.error (.segmentNotFound w.request.text))⟩ := by
      refine turn_of_ends stand ?_
      unfold Await.turn
      rw [bound]
      exact if_pos gone
    refine .ended n.lt_succ_self (fun i _ _ => by omega) ?_ ?_ (.gone ⟨n,n.lt_succ_self,gone⟩ (.inl gone))
    · rw [time,moment,ended]
      rfl
    · rw [moment,ended]
  have live := Bool.eq_false_iff.mpr gone
  obtain ⟨⟨hasExited,stand₁⟩,stand₂,clock₂⟩ := listed_of_live bound stand live
  have time₂ : w.time (n + 2) = w.time n := congrArg Clock.millis clock₂
  have none₁ : ¬ w.Looks (n + 1) := not_looks_of_stand stand₁ nofun
  have none₂ : ¬ w.Looks (n + 2) := not_looks_of_stand stand₂ nofun
  have only₃ (i : Nat) (after : n < i) (before : i < n + 3) : ¬ w.Looks i := by
    obtain rfl | rfl : i = n + 1 ∨ i = n + 2 := by omega
    · exact none₁
    · exact none₂
  cases listing : w.listing? run n with
  | none =>
    rw [listing] at stand₂
    have gone₁ : (w.seen (n + 1)).isDestroyed run := by
      rw [← Bool.not_eq_false]
      intro live₁
      have listed := monotone.listable n (n + 1) live₁
      rw [← listing?,listing] at listed
      cases listed
    have gone₂ := monotone.destroyed _ gone₁
    obtain ⟨-,ended,time₃⟩ := ended_of_ends bound stand₂ (if_pos gone₂)
    exact .ended (by omega) only₃ (time₃.trans time₂) ended (.gone ⟨n + 2,by omega,gone₂⟩ (.inr listing))
  | some a =>
    rw [listing] at stand₂
    have shown : w.shown? run n = Await.file? w.request a := congrArg (Option.bind · _) listing
    cases file : Await.file? w.request a with
    | some name =>
      obtain ⟨-,ended,time₃⟩ := ended_of_ends bound stand₂ (by unfold Await.decide; dsimp only; rw [file])
      exact .ended (by omega) only₃ (time₃.trans time₂) ended (.found live rfl listing (shown.trans file))
    | none =>
      have misses (resumed : (w.turn (w.moment (n + 2))).state =
          if (w.seen (n + 2)).isThrottled run then ((w.seen (n + 2)).resume run).1 else w.seen (n + 2)) : w.Misses run n :=
        ⟨live,Option.isSome_of_eq_some listing,shown.trans file,resumed⟩
      by_cases late : w.deadline ≤ w.time (n + 2)
      · obtain ⟨resumed,ended,time₃⟩ := ended_of_ends bound stand₂ (by
          unfold Await.decide; dsimp only; rw [file]; exact if_pos late)
        exact .ended (by omega) only₃ (time₃.trans time₂) ended (.late (misses resumed) (time₂ ▸ late))
      · obtain ⟨resumed,stand₃,time₃⟩ := sleeping_of_goesOn bound stand₂ (by
          unfold Await.decide; dsimp only; rw [file]; exact if_neg late)
        have early : w.time (n + 3) < min (w.time (n + 2) + pause) w.deadline := by
          have same : w.time (n + 3) = w.time (n + 2) := time₃
          omega
        obtain ⟨⟨wake,stand₄⟩,stand₅,time₅⟩ := looking_of_sleeping bound stand₃ early
        have none₃ : ¬ w.Looks (n + 3) := not_looks_of_stand stand₃ nofun
        have none₄ : ¬ w.Looks (n + 4) := not_looks_of_stand stand₄ nofun
        refine .again (fun i after before => ?_) (misses resumed) (by omega) (time₂ ▸ time₅) stand₅
        rcases Nat.lt_or_ge i (n + 3) with near | far
        · exact only₃ i after near
        · obtain rfl | rfl : i = n + 3 ∨ i = n + 4 := by omega
          · exact none₃
          · exact none₄

/-! ### All looks -/

theorem looks_succ (w : Waiting) (n : Nat) : w.looks (n + 1) = w.looks n + if (w.moment n).looks then 1 else 0 := by
  simp only [looks,List.range_succ,List.countP_append,List.countP_singleton]

/-- After a look that is the only one since there is one more. -/
theorem looks_of_only {m : Nat} (looks : w.Looks n) (after : n < m) (only : ∀ i, n < i → i < m → ¬ w.Looks i) :
    w.looks m = w.looks n + 1 := by
  induction m with
  | zero => omega
  | succ m ih =>
    rw [looks_succ]
    rcases Nat.lt_or_eq_of_le (Nat.le_of_lt_succ after) with later | rfl
    · have idle : ¬ (w.moment m).looks = true := only m later m.lt_succ_self
      rw [if_neg idle,ih later fun i after before => only i after (Nat.lt_succ_of_lt before)]
    · have looking : (w.moment n).looks = true := looks
      rw [if_pos looking]

/-- The call looks in a turn, and no look before has found the file. -/
structure Still (w : Waiting) (run n pause : Nat) : Prop where
  stand : (w.moment n).stand = .inl (.looking w.deadline pause)
  long : 100 ≤ pause
  inTime : w.time n ≤ w.deadline
  misses : ∀ i < n, w.Looks i → w.Misses run i ∧ w.time i < w.deadline
  /-- The looks before the deadline are at least the first pause apart. -/
  apart : w.clock.millis + 100 * w.looks n ≤ w.time n ∨ w.time n = w.deadline
  few : 100 * w.looks n < w.timeout + 100

variable {m : Nat}

namespace Still

theorem looks (still : w.Still run n pause) : w.Looks n := by
  rw [Looks,Moment.looks,still.stand]

theorem first (w : Waiting) (bound : w.lease.run = some run) : w.Still run 1 firstPause := by
  have begun : w.turn (w.moment 0) = ⟨w.seen 0,w.clock,.inl (.looking w.deadline firstPause)⟩ := by
    refine turn_of_goesOn (show (w.moment 0).stand = .inl .begin from rfl) ?_
    unfold Await.turn
    rw [bound]
    rfl
  have time : w.time 1 = w.clock.millis := by rw [Waiting.time,moment,begun]
  have none : w.looks 1 = 0 := rfl
  refine ⟨by rw [moment,begun],Nat.le_refl _,?_,fun i before looks => ?_,?_,?_⟩
  · rw [time,deadline]
    omega
  · obtain rfl : i = 0 := by omega
    cases looks
  · omega
  · omega

theorem next (still : w.Still run n pause) (only : ∀ i, n < i → i < n + 5 → ¬ w.Looks i) (misses : w.Misses run n)
    (early : w.time n < w.deadline) (time : w.time (n + 5) = min (w.time n + pause) w.deadline)
    (stand : (w.moment (n + 5)).stand = .inl (.looking w.deadline (min (2 * pause) longestPause))) :
    w.Still run (n + 5) (min (2 * pause) longestPause) := by
  have count := looks_of_only still.looks (by omega) only
  have long := still.long
  have apart := still.apart
  have deadline : w.deadline = w.clock.millis + w.timeout := rfl
  refine ⟨stand,?_,by omega,fun i before looks => ?_,by omega,by omega⟩
  · unfold longestPause
    omega
  · rcases Nat.lt_trichotomy i n with earlier | rfl | later
    · exact still.misses i earlier looks
    · exact ⟨misses,early⟩
    · exact absurd looks (only i later before)

/-- When the call is over its looks are those before and the last one. -/
theorem looks_or_last (still : w.Still run n pause) (only : ∀ i, n < i → i < m → ¬ w.Looks i) {i : Nat} (before : i < m)
    (looks : w.Looks i) : i < n ∧ w.Misses run i ∧ w.time i < w.deadline ∨ i = n := by
  rcases Nat.lt_trichotomy i n with earlier | same | later
  · exact .inl ⟨earlier,still.misses i earlier looks⟩
  · exact .inr same
  · exact absurd looks (only i later before)

theorem ends (still : w.Still run n pause) (monotone : IsMonotone run w.request w.seen) (after : n < m)
    (only : ∀ i, n < i → i < m → ¬ w.Looks i) (time : w.time m = w.time n) {result : Result ReadyFile}
    (ended : (w.moment m).stand = .inr result) (outcome : w.Outcome run n m result) : w.Ends run m result := by
  have stays {i j : Nat} (later : i ≤ j) (gone : (w.seen i).isDestroyed run) : (w.seen j).isDestroyed run := by
    induction later with
    | refl => exact gone
    | step _ ih => exact monotone.destroyed _ ih
  have count := looks_of_only still.looks after only
  have few := still.few
  have inTime := still.inTime
  have resumed (blank : ¬ w.Misses run n →
      (w.seen n).isDestroyed run ∨ ¬ (w.listing? run n).isSome ∨ (w.shown? run n).isSome) :
      ∀ i < m, w.Looks i → (w.seen i).isDestroyed run = false → (w.listing? run i).isSome → w.shown? run i = none →
        w.Misses run i := by
    intro i before looks live listed absent
    obtain ⟨-,misses,-⟩ | rfl := still.looks_or_last only before looks
    · exact misses
    · by_cases misses : w.Misses run i
      · exact misses
      · simpa [live,listed,absent] using blank misses
  cases outcome with
  | gone gone blind =>
    obtain ⟨k,before,gone⟩ := gone
    have blank : w.Finds run n → False := fun ⟨live,shown⟩ => by
      rcases blind with gone | lost
      · simp [live] at gone
      · simp [shown?,lost] at shown
    refine ⟨ended,by omega,by omega,⟨nofun,?_⟩,nofun,?_,nofun,fun _ _ _ _ => rfl,?_,resumed fun _ => ?_⟩
    · rintro ⟨i,before,looks,finds⟩
      obtain ⟨-,misses,-⟩ | rfl := still.looks_or_last only before looks
      · exact absurd finds misses.not_finds
      · exact (blank finds).elim
    · intro j _ _ live
      have gone := stays (Nat.le_trans (Nat.le_of_lt before) (Nat.le_max_right j m)) gone
      simp [live] at gone
    · rintro e ⟨⟩
      exact .inr ⟨rfl,k,before,gone⟩
    · simpa using blind.imp_right .inl
  | @found live file by_run listed shown =>
    have found : (w.shown? run n).isSome := Option.isSome_of_eq_some shown
    refine ⟨ended,by omega,by omega,⟨fun _ => ⟨n,after,still.looks,live,found⟩,fun _ => ⟨file,rfl⟩⟩,?_,
      fun _ _ _ _ => ⟨file,rfl⟩,nofun,?_,nofun,resumed fun _ => .inr (.inr found)⟩
    · rintro _ ⟨⟩
      exact ⟨by_run,n,after,still.looks,listed,shown⟩
    · intro i before looks blind
      obtain ⟨-,misses,-⟩ | rfl := still.looks_or_last only before looks
      · exact absurd blind misses.not_blind
      · simp [live,listed] at blind
  | late misses late =>
    refine ⟨ended,by omega,by omega,⟨nofun,?_⟩,nofun,?_,fun _ => ?_,?_,?_,resumed fun no => absurd misses no⟩
    · rintro ⟨i,before,looks,finds⟩
      obtain ⟨-,misses,-⟩ | rfl := still.looks_or_last only before looks
      · exact absurd finds misses.not_finds
      · exact absurd finds misses.not_finds
    · intro j timely shown live
      have before : j ≤ n := Nat.le_of_not_lt fun later => by
        have := timely n later still.looks
        omega
      have live₁ : (w.seen (n + 1)).isDestroyed run = false :=
        Bool.eq_false_iff.mpr fun gone => by simp [stays (Nat.le_trans after (Nat.le_max_right j m)) gone] at live
      have found := monotone.listed (Nat.le_refl j) n.le_succ before (Nat.le_succ_of_le before) shown live₁
      exact absurd ⟨misses.live,found⟩ misses.not_finds
    · exact ⟨by omega,n,after,still.looks,by omega,misses.absent⟩
    · intro i before looks blind
      obtain ⟨-,misses,-⟩ | rfl := still.looks_or_last only before looks
      · exact absurd blind misses.not_blind
      · exact absurd blind misses.not_blind
    · rintro e ⟨⟩
      exact .inl rfl

end Still

end Waiting

end Playout.Playback
