import Mathlib.Algebra.Order.Group.Defs
import Mathlib.Algebra.Order.Field.Rat
import Mathlib.Data.Int.ConditionallyCompleteOrder
import Mathlib.Tactic.Linarith
import Playout.Encoder.Launch
import Playout.Proofs.Representation.Tiling
import Playout.Proofs.Run.Available

/-!
A segment holds the same part of its stream whichever run makes it. A muxer is told
where a run starts, how long it is and where it is cut; it numbers its pieces from
zero and begins another one at every cut (`Cutting.pieceAt`). Counted from the first
segment of the run, these pieces are the segments of the plan, and that is how their
files are listed.
-/
namespace Playout

/-- The ticks of a segment. -/
def Rendering.Holds (r : Rendering) (index : Nat) (tick : Int) : Prop :=
  ∃ start stop, r.segmentStart? index = some start ∧ r.segmentEnd? index = some stop ∧ start ≤ tick ∧ tick < stop

theorem Rendering.segmentStart?_of_lt {r : Rendering} {index : Nat} (inside : index < r.segmentCount) :
    ∃ start, r.segmentStart? index = some start :=
  ⟨_,List.getElem?_eq_getElem inside⟩

/-- A tick of the stream is in a segment if it is not before the segment, nor in a later one. -/
theorem Rendering.holds_iff {r : Rendering} {index : Nat} {start tick : Int} (here : r.segmentStart? index = some start)
    (short : tick < r.stream.durationTicks) :
    r.Holds index tick ↔ start ≤ tick ∧ ∀ stop, r.segmentStart? (index + 1) = some stop → tick < stop := by
  have inside : index < r.starts.length := (List.getElem?_eq_some_iff.mp here).1
  have ends : r.segmentEnd? index = some ((r.segmentStart? (index + 1)).getD r.stream.durationTicks) := if_pos inside
  constructor
  · rintro ⟨start',stop,here',ends',after,before⟩
    rw [here] at here'
    cases here'
    refine ⟨after,?_⟩
    intro next starts
    rw [ends,starts] at ends'
    cases ends'
    exact before
  · rintro ⟨after,before⟩
    refine ⟨start,_,here,ends,after,?_⟩
    cases next : r.segmentStart? (index + 1) with
    | none => exact short
    | some stop => exact before stop next

namespace Encoder

/-- What a muxer is told of a run. -/
structure Cutting (τ : Type) where
  start : τ
  duration? : Option τ
  cuts : List τ

namespace Cutting
variable {τ : Type} [AddCommGroup τ] [LinearOrder τ]

/-- A run encodes what is not before its start and not past its length, if that is bounded. -/
def Encodes (c : Cutting τ) (t : τ) : Prop :=
  c.start ≤ t ∧ ∀ duration, c.duration? = some duration → t < c.start + duration

/-- The number of the piece that a time falls into: as many cuts as are not after it. -/
def pieceAt (c : Cutting τ) (t : τ) : Nat := c.cuts.countP (· ≤ t)

/-- What is written to a piece. -/
def Writes (c : Cutting τ) (n : Nat) (t : τ) : Prop := c.Encodes t ∧ c.pieceAt t = n

end Cutting

/-- What the muxer is told of a job. -/
def Job.cutting {τ : Type} (scale : TimeScale τ) (j : Job) : Cutting τ where
  start := j.start scale
  duration? := j.duration? scale
  cuts := j.cutTimes scale

end Encoder

/-- Times that are reckoned with exactly. -/
def TimeScale.exact {τ : Type} [AddCommGroup τ] [LinearOrder τ] (time : Stream → Int → τ) : TimeScale τ where
  time := time
  zero := 0
  difference := (· - ·)
  greater := max

/-! ### Counting in ascending lists -/

/-- Of an ascending list, the first elements are those that are not greater than a number. -/
theorem lt_countP_iff {l : List Int} (ascending : l.Pairwise (· < ·)) (tick : Int) (k : Nat) :
    k < l.countP (· ≤ tick) ↔ ∃ start, l[k]? = some start ∧ start ≤ tick := by
  induction l generalizing k with
  | nil => simp
  | cons x l ih =>
    obtain ⟨first,ascending⟩ := List.pairwise_cons.mp ascending
    by_cases reached : x ≤ tick
    · have one_more : (x :: l).countP (· ≤ tick) = l.countP (· ≤ tick) + 1 :=
        List.countP_cons_of_pos (decide_eq_true reached)
      rw [one_more]
      cases k with
      | zero => simp [reached]
      | succ k => simpa using ih ascending k
    · have nothing : (x :: l).countP (· ≤ tick) = 0 := by
        rw [List.countP_eq_zero]
        intro y member
        rw [decide_eq_true_eq]
        rcases List.mem_cons.mp member with rfl | member
        · exact reached
        · have later := first y member
          omega
      rw [nothing]
      constructor
      · intro below
        omega
      · rintro ⟨start,found,before⟩
        rcases List.mem_cons.mp (List.mem_of_getElem? found) with rfl | member
        · exact absurd before reached
        · have later := first start member
          omega

namespace Encoder.Job
variable {τ : Type} {j : Job}

/-- A run over some segments of a plan; their numbers have 32 bits. -/
structure IsRange (j : Job) : Prop where
  ascending : j.rendering.starts.Pairwise (· < ·)
  nonempty : j.first < j.last
  inside : j.last ≤ j.rendering.segmentCount
  small : j.last ≤ max32

/-- The ticks where a run is cut. -/
def cutTicks (j : Job) : List Int := (j.rendering.starts.drop (j.first + 1)).take (j.last - (j.first + 1))

theorem IsRange.start_le (range : j.IsRange) {i i' : Nat} {start start' : Int}
    (here : j.rendering.segmentStart? i = some start) (there : j.rendering.segmentStart? i' = some start')
    (le : i ≤ i') : start ≤ start' := by
  obtain ⟨inside,rfl⟩ := List.getElem?_eq_some_iff.mp here
  obtain ⟨inside',rfl⟩ := List.getElem?_eq_some_iff.mp there
  rcases Nat.eq_or_lt_of_le le with rfl | lt
  · exact Int.le_refl _
  · exact Int.le_of_lt (List.pairwise_iff_getElem.mp range.ascending i i' inside inside' lt)

theorem getElem?_cutTicks (j : Job) (k : Nat) :
    j.cutTicks[k]? = if k < j.last - (j.first + 1) then j.rendering.segmentStart? (j.first + 1 + k) else none := by
  rw [cutTicks,List.getElem?_take]
  split
  · rw [List.getElem?_drop]
    rfl
  · rfl

theorem IsRange.ascending_cutTicks (range : j.IsRange) : j.cutTicks.Pairwise (· < ·) :=
  range.ascending.sublist ((List.take_sublist _ _).trans (List.drop_sublist _ _))

theorem IsRange.length_cutTicks (range : j.IsRange) : j.cutTicks.length = j.last - (j.first + 1) := by
  have inside := range.inside
  have nonempty := range.nonempty
  rw [Rendering.segmentCount] at inside
  rw [cutTicks,List.length_take,List.length_drop]
  omega

/-- Every cut of the range has a start. -/
theorem IsRange.cutTimes_eq (range : j.IsRange) (scale : TimeScale τ) :
    j.cutTimes scale = j.cutTicks.map (scale.time j.rendering.stream) := by
  have found : ∀ (m i : Nat), i + m ≤ j.rendering.starts.length →
      (List.range' i m).filterMap (j.rendering.startOf? scale) =
        ((j.rendering.starts.drop i).take m).map (scale.time j.rendering.stream) := by
    intro m
    induction m with
    | zero => intros; rw [List.take_zero]; rfl
    | succ m ih =>
      intro i inside
      have here : i < j.rendering.starts.length := by omega
      have start : j.rendering.startOf? scale i = some (scale.time j.rendering.stream j.rendering.starts[i]) := by
        rw [Rendering.startOf?,Rendering.segmentStart?,List.getElem?_eq_getElem here]
        rfl
      rw [List.range'_succ,List.filterMap_cons_some start,ih (i + 1) (by omega),List.drop_eq_getElem_cons here,
        List.take_succ_cons,List.map_cons]
  have inside := range.inside
  have nonempty := range.nonempty
  rw [Rendering.segmentCount] at inside
  exact found _ _ (by omega)

/-! ### What is encoded, and where it is cut -/

variable [AddCommGroup τ] [LinearOrder τ] {time : Stream → Int → τ} {tick : Int}

theorem start_eq {a : Int} (start : j.rendering.segmentStart? j.first = some a) :
    j.start (.exact time) = time j.rendering.stream a := by
  rw [Job.start,Rendering.startOf?,start]
  rfl

/-- The run goes on to the end of the stream exactly if no segment is left out there. -/
theorem IsRange.duration?_eq_none_iff (range : j.IsRange) :
    j.duration? (.exact time) = none ↔ j.last = j.rendering.segmentCount := by
  have inside := range.inside
  rw [duration?]
  by_cases last : j.rendering.segmentCount ≤ j.last
  · rw [if_pos last]
    exact iff_of_true rfl (Nat.le_antisymm inside last)
  · obtain ⟨b,stop⟩ := Rendering.segmentStart?_of_lt (Nat.lt_of_not_le last)
    rw [if_neg last,Rendering.startOf?,stop]
    constructor
    · intro absent
      cases absent
    · intro same
      omega

/-- Otherwise it ends where the segment after its last starts. -/
theorem IsRange.start_add_duration [IsOrderedAddMonoid τ] (range : j.IsRange)
    (monotone : StrictMono (time j.rendering.stream)) {duration : τ} (bounded : j.duration? (.exact time) = some duration) :
    ∃ b, j.rendering.segmentStart? j.last = some b ∧ j.start (.exact time) + duration = time j.rendering.stream b := by
  have nonempty := range.nonempty
  rw [duration?] at bounded
  by_cases last : j.rendering.segmentCount ≤ j.last
  · rw [if_pos last] at bounded
    cases bounded
  · have known : j.first < j.rendering.segmentCount := by omega
    obtain ⟨a,start⟩ := Rendering.segmentStart?_of_lt known
    obtain ⟨b,stop⟩ := Rendering.segmentStart?_of_lt (Nat.lt_of_not_le last)
    have later : time j.rendering.stream a ≤ time j.rendering.stream b :=
      monotone.monotone (range.start_le start stop (Nat.le_of_lt nonempty))
    rw [if_neg last,Rendering.startOf?,stop,start_eq start] at bounded
    obtain rfl : max (time j.rendering.stream b - time j.rendering.stream a) 0 = duration := Option.some.inj bounded
    refine ⟨b,stop,?_⟩
    rw [start_eq start,max_eq_left (sub_nonneg.mpr later),add_sub_cancel]

/-- A run encodes its range: from the start of its first segment to that of the segment after its last,
    if there is one. -/
theorem IsRange.encodes_iff [IsOrderedAddMonoid τ] (range : j.IsRange) (monotone : StrictMono (time j.rendering.stream))
    {a : Int} (start : j.rendering.segmentStart? j.first = some a) :
    (j.cutting (.exact time)).Encodes (time j.rendering.stream tick) ↔
      a ≤ tick ∧ ∀ b, j.rendering.segmentStart? j.last = some b → tick < b := by
  have begins : (j.cutting (.exact time)).start = time j.rendering.stream a := start_eq start
  rw [Cutting.Encodes,begins,monotone.le_iff_le]
  refine and_congr_right fun _ => ?_
  change (∀ duration, j.duration? (.exact time) = some duration → _) ↔ _
  have endless : j.duration? (.exact time) = none ↔ j.last = j.rendering.segmentCount := range.duration?_eq_none_iff
  have begins : j.start (.exact time) = time j.rendering.stream a := start_eq start
  constructor
  · intro before b stop
    have inside : ¬ j.last = j.rendering.segmentCount := by
      obtain ⟨below,_⟩ := List.getElem?_eq_some_iff.mp stop
      exact Nat.ne_of_lt below
    obtain ⟨duration,bounded⟩ := Option.ne_none_iff_exists'.mp (mt endless.mp inside)
    obtain ⟨b',stop',reaches⟩ := range.start_add_duration monotone bounded
    have early := before duration bounded
    rw [← begins,reaches] at early
    rw [stop] at stop'
    cases stop'
    exact monotone.lt_iff_lt.mp early
  · intro before duration bounded
    obtain ⟨b,stop,reaches⟩ := range.start_add_duration monotone bounded
    rw [← begins,reaches]
    exact monotone.lt_iff_lt.mpr (before b stop)

/-- The pieces of a run are its segments, counted from the first. -/
theorem IsRange.lt_pieceAt_iff (range : j.IsRange) (monotone : StrictMono (time j.rendering.stream)) (tick : Int)
    (k : Nat) :
    k < (j.cutting (.exact time)).pieceAt (time j.rendering.stream tick) ↔
      k < j.last - (j.first + 1) ∧ ∃ start, j.rendering.segmentStart? (j.first + 1 + k) = some start ∧ start ≤ tick := by
  have counted : (j.cutting (.exact time)).pieceAt (time j.rendering.stream tick) = j.cutTicks.countP (· ≤ tick) := by
    rw [Cutting.pieceAt,cutting,range.cutTimes_eq,List.countP_map]
    congr 1
    funext start
    exact decide_eq_decide.mpr monotone.le_iff_le
  rw [counted,lt_countP_iff range.ascending_cutTicks,getElem?_cutTicks]
  by_cases inside : k < j.last - (j.first + 1)
  · simp [inside]
  · simp [inside]

/-- A piece that a run writes is the segment of its number, counted from the first segment of the run. -/
theorem IsRange.writes_iff [IsOrderedAddMonoid τ] (range : j.IsRange) (monotone : StrictMono (time j.rendering.stream))
    (short : tick < j.rendering.stream.durationTicks) (n : Nat) :
    (j.cutting (.exact time)).Writes n (time j.rendering.stream tick) ↔
      j.first + n < j.last ∧ j.rendering.Holds (j.first + n) tick := by
  have nonempty := range.nonempty
  have inside := range.inside
  have known : j.first < j.rendering.segmentCount := by omega
  obtain ⟨a,start⟩ := Rendering.segmentStart?_of_lt known
  have reached := range.lt_pieceAt_iff monotone tick
  rw [Cutting.Writes,range.encodes_iff monotone start]
  constructor
  · rintro ⟨⟨after,before⟩,rfl⟩
    generalize (j.cutting (.exact time)).pieceAt (time j.rendering.stream tick) = n at reached
    -- the piece is not past the last segment, and the segment of its number has started
    have started : j.first + n < j.last ∧ ∃ start, j.rendering.segmentStart? (j.first + n) = some start ∧ start ≤ tick := by
      cases n with
      | zero => exact ⟨nonempty,a,start,after⟩
      | succ k =>
        obtain ⟨below,begun⟩ := (reached k).mp (Nat.lt_succ_self k)
        rw [show j.first + (k + 1) = j.first + 1 + k by omega]
        exact ⟨by omega,begun⟩
    obtain ⟨below,first,here,begun⟩ := started
    refine ⟨below,(Rendering.holds_iff here short).mpr ⟨begun,?_⟩⟩
    intro stop next
    by_cases last : j.first + n + 1 = j.last
    · exact before stop (last ▸ next)
    · rw [show j.first + n + 1 = j.first + 1 + n by omega] at next
      by_contra late
      exact Nat.lt_irrefl n ((reached n).mpr ⟨by omega,stop,next,Int.not_lt.mp late⟩)
  · rintro ⟨below,holds⟩
    have known : j.first + n < j.rendering.segmentCount := by omega
    obtain ⟨first,here⟩ := Rendering.segmentStart?_of_lt known
    obtain ⟨begun,next⟩ := (Rendering.holds_iff here short).mp holds
    refine ⟨⟨Int.le_trans (range.start_le start here (by omega)) begun,?_⟩,Nat.le_antisymm ?_ ?_⟩
    · intro b stop
      have inside' : j.last < j.rendering.segmentCount := (List.getElem?_eq_some_iff.mp stop).1
      have known : j.first + n + 1 < j.rendering.segmentCount := by omega
      obtain ⟨c,later⟩ := Rendering.segmentStart?_of_lt known
      exact Int.lt_of_lt_of_le (next c later) (range.start_le later stop (by omega))
    · by_contra more
      obtain ⟨_,stop,later,begun'⟩ := (reached n).mp (Nat.lt_of_not_le more)
      rw [show j.first + 1 + n = j.first + n + 1 by omega] at later
      exact absurd (next stop later) (Int.not_lt_of_ge begun')
    · cases n with
      | zero => exact Nat.zero_le _
      | succ k =>
        rw [show j.first + (k + 1) = j.first + 1 + k by omega] at here
        exact (reached k).mpr ⟨by omega,first,here,begun⟩

/-! ### What is listed -/

/-- Of a directory, those pieces are listed that fall into the range, and each under the number of its segment. Other
    files may be there, such as the header and the log. -/
theorem mem_listed_iff {names : List String} {n : Nat} (range : j.IsRange)
    (written : ∀ name ∈ names, (∃ m, name = segmentName m j.rendering.kind) ∨
      segmentNumber? (extension j.rendering.kind).toList name.toList = none) :
    (j.first + n,segmentName n j.rendering.kind) ∈ Available.listed j names ↔
      segmentName n j.rendering.kind ∈ names ∧ j.first + n < j.last := by
  constructor
  · intro member
    obtain ⟨there,number⟩ := Available.mem_listed member
    exact ⟨there,(Available.segmentOf?_segmentName.mp number).2.2⟩
  · rintro ⟨there,below⟩
    have small : n ≤ max32 := Nat.le_trans (Nat.le_trans (Nat.le_add_left n j.first) (Nat.le_of_lt below)) range.small
    have number : j.segmentOf? (segmentName n j.rendering.kind) = some (j.first + n) :=
      Available.segmentOf?_segmentName.mpr ⟨small,rfl,below⟩
    obtain ⟨⟨i,name⟩,member,same⟩ := List.mem_map.mp (Available.mem_map_listed.mpr ⟨_,there,number⟩)
    obtain rfl : i = j.first + n := same
    obtain ⟨there',number'⟩ := Available.mem_listed member
    rcases written name there' with ⟨m,rfl⟩ | other
    · obtain ⟨_,shift,_⟩ := Available.segmentOf?_segmentName.mp number'
      obtain rfl : n = m := by omega
      exact member
    · rw [segmentOf?,other] at number'
      cases number'

/-! ### Runs over one plan -/

/-- A run follows the plan of its rendering: it is cut where its segments start, save the first, and it ends where
    the segment after its last starts, or with the stream. So its pieces are its segments, under whose numbers
    their files are listed, whatever other files are there. -/
structure FollowsPlan (time : Stream → Int → τ) (j : Job) : Prop where
  cut_count : (j.cutTimes (.exact time)).length = j.last - j.first - 1
  cut : ∀ k < j.last - j.first - 1, ∃ start, j.rendering.segmentStart? (j.first + k + 1) = some start ∧
    (j.cutTimes (.exact time))[k]? = some (time j.rendering.stream start)
  endless : j.duration? (.exact time) = none ↔ j.last = j.rendering.segmentCount
  reaches : ∀ duration, j.duration? (.exact time) = some duration → ∃ start stop,
    j.rendering.segmentStart? j.first = some start ∧ j.rendering.segmentStart? j.last = some stop ∧
      j.start (.exact time) = time j.rendering.stream start ∧
      j.start (.exact time) + duration = time j.rendering.stream stop
  pieces : ∀ n, ∀ tick < j.rendering.stream.durationTicks,
    (j.cutting (.exact time)).Writes n (time j.rendering.stream tick) ↔
      j.first + n < j.last ∧ j.rendering.Holds (j.first + n) tick
  listed : ∀ n names, (∀ name ∈ names, (∃ m, name = segmentName m j.rendering.kind) ∨
      segmentNumber? (extension j.rendering.kind).toList name.toList = none) →
    ((j.first + n,segmentName n j.rendering.kind) ∈ Available.listed j names ↔
      segmentName n j.rendering.kind ∈ names ∧ j.first + n < j.last)

theorem IsRange.followsPlan [IsOrderedAddMonoid τ] (range : j.IsRange) (monotone : StrictMono (time j.rendering.stream)) :
    j.FollowsPlan time where
  cut_count := by
    rw [range.cutTimes_eq,List.length_map,range.length_cutTicks,Nat.sub_sub]
  cut := by
    intro k below
    have inside := range.inside
    have known : j.first + k + 1 < j.rendering.segmentCount := by omega
    obtain ⟨start,here⟩ := Rendering.segmentStart?_of_lt known
    have cut : j.cutTicks[k]? = some start := by
      rw [getElem?_cutTicks,if_pos (by omega),Nat.add_right_comm]
      exact here
    refine ⟨start,here,?_⟩
    rw [range.cutTimes_eq,List.getElem?_map,cut]
    rfl
  endless := range.duration?_eq_none_iff
  reaches := by
    intro duration bounded
    have nonempty := range.nonempty
    have inside := range.inside
    have known : j.first < j.rendering.segmentCount := by omega
    obtain ⟨start,here⟩ := Rendering.segmentStart?_of_lt known
    obtain ⟨stop,there,reaches⟩ := range.start_add_duration monotone bounded
    exact ⟨start,stop,here,there,start_eq here,reaches⟩
  pieces := fun n tick short => range.writes_iff monotone short n
  listed := fun n names written => mem_listed_iff range written

/-- A segment holds the same part of the stream whichever run makes it: every run over a range of a plan follows the
    plan, and two runs write the same to the pieces that they make of one segment. -/
theorem segments_same_in_every_run [IsOrderedAddMonoid τ] (range : j.IsRange)
    (monotone : StrictMono (time j.rendering.stream)) :
    j.FollowsPlan time ∧ ∀ j' : Job, j'.rendering = j.rendering → j'.IsRange →
      ∀ n n', j.first + n = j'.first + n' → j.first + n < j.last → j'.first + n' < j'.last →
        ∀ tick < j.rendering.stream.durationTicks,
          (j.cutting (.exact time)).Writes n (time j.rendering.stream tick) ↔
            (j'.cutting (.exact time)).Writes n' (time j.rendering.stream tick) := by
  refine ⟨range.followsPlan monotone,?_⟩
  intro j' same range' n n' segment below below' tick short
  have other := range'.writes_iff (same ▸ monotone) (same ▸ short) n'
  rw [same,← segment] at other
  rw [range.writes_iff monotone short n,other]
  exact and_congr_left' (iff_of_true below (segment ▸ below'))

/-- The last two of the three segments of a film. -/
def lastTwo : Job := ⟨default,"film.mkv",⟨film,.copied film,[0,4,8]⟩,1,3,"run",5.0,none⟩

/-- Seconds as fractions. -/
def exactSeconds (s : Stream) (ticks : Int) : ℚ := ticks * s.timeBase.num / s.timeBase.den

theorem last_piece_of_two : lastTwo.IsRange ∧ StrictMono (exactSeconds film) ∧
    (lastTwo.cutting (.exact exactSeconds)).Writes 1 (exactSeconds film 9) ∧
    lastTwo.duration? (.exact exactSeconds) = none ∧
    (2,"stream0_1.m4s") ∈ Available.listed lastTwo [logName,initName,"stream0_0.m4s","stream0_1.m4s"] := by
  have range : lastTwo.IsRange := ⟨by decide,by decide,by decide,by decide⟩
  have monotone : StrictMono (exactSeconds film) := by
    intro a b less
    simpa [exactSeconds,film] using less
  have plan : lastTwo.FollowsPlan exactSeconds := (segments_same_in_every_run range monotone).1
  have piece := (plan.pieces 1 9 (by decide)).mpr ⟨by decide,8,10,rfl,rfl,by decide,by decide⟩
  have names : ∀ name ∈ [logName,initName,"stream0_0.m4s","stream0_1.m4s"],
      (∃ m, name = segmentName m lastTwo.rendering.kind) ∨
        segmentNumber? (extension lastTwo.rendering.kind).toList name.toList = none := by
    intro name member
    simp only [List.mem_cons,List.not_mem_nil,or_false] at member
    rcases member with rfl | rfl | rfl | rfl
    · exact .inr (by decide)
    · exact .inr (by decide)
    · exact .inl ⟨0,by decide⟩
    · exact .inl ⟨1,by decide⟩
  exact ⟨range,monotone,piece,plan.endless.mpr rfl,(plan.listed 1 _ names).mpr ⟨by decide,by decide⟩⟩

end Encoder.Job
end Playout
