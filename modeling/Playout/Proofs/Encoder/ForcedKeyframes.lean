import Mathlib.Algebra.Order.Ring.Abs
import Mathlib.Tactic.NormNum
import Mathlib.Tactic.Positivity
import Mathlib.Tactic.Ring
import Playout.Proofs.Binary64.Fixed
import Playout.Proofs.Encoder.Pieces

/-!
A video that is encoded afresh can only be cut at keyframes, so the encoder is told to
force one whenever the printed segment length has passed. The cuts of the run lie on the
grid of its plan, whose cells are whole numbers of ticks. From the start of the run both
advance evenly, the one by the printed length and the other by a cell, so that they
come apart by the difference of the two with every segment. A muxer that tolerates a
thousandth of a second finds a keyframe at every cut of a run exactly if one is near its
last cut.
-/
namespace Playout

/-- A grid starts a segment at every multiple of its spacing. -/
theorem Segment.getElem?_starts_grid {duration spacing start : Int} {i : Nat}
    (here : (Segment.starts (Segment.grid duration spacing))[i]? = some start) : start = i * max spacing 1 := by
  rw [starts_eq_map,grid,map_interval_number,List.map_map,List.getElem?_map] at here
  obtain ⟨k,found,rfl⟩ := Option.map_eq_some_iff.mp here
  obtain ⟨below,rfl⟩ := List.getElem?_eq_some_iff.mp found
  rw [List.getElem_range]
  rfl

namespace Encoder

/-- How far from a cut a muxer may find the keyframe that it cuts at (`-segment_time_delta`), in seconds. -/
def cutTolerance : ℚ := 1 / 1000

/-- The value of an option, where each option is followed by its value. -/
def optionValue? (option : String) : List String → Option String
  | name :: value :: rest => if name = option then some value else optionValue? option rest
  | _ => none

namespace Job
variable {j : Job}

/-- The time that passes from one forced keyframe to the next, as the encoder is told it: an expression that compares
    the time since the start of the run with a multiple of a printed number of seconds. -/
def forcedEvery? (j : Job) : Option ℚ := do
  let expression ← optionValue? "-force_key_frames" j.codecArguments
  let number ← Text.dropStart? "expr:gte(t,n_forced*".toList expression.toList
  Binary64.rational? (← Text.dropEnd? ")".toList number)

/-- The length of a cell of the grid that the rendering is cut on. -/
def cellSeconds (j : Job) : ℚ :=
  let stream := j.rendering.stream
  exactSeconds stream (Segment.spacingTicks j.segmentSeconds stream.timeBase)

/-- The keyframe that is forced after so many times `every` is near the cut of its number, counted from one, at every
    cut of the run. -/
def KeyframesMeetCuts (j : Job) (every : ℚ) : Prop :=
  ∀ (k : Nat) (cut : ℚ), (j.cutTimes (.exact exactSeconds))[k]? = some cut →
    |(k + 1) * every - (cut - j.start (.exact exactSeconds))| ≤ cutTolerance

/-- What is forced for a video that is encoded afresh, the printed length being read as it is written. -/
theorem forcedEvery?_eq {settings : Encoding.Settings} {exact' : Binary64.Exact}
    (encodes : j.rendering.representation.delivery = .encode settings) (video : j.rendering.kind = .video)
    (finite : Binary64.value j.segmentSeconds = .finite exact') (positive : exact'.negative = false) :
    j.forcedEvery? = some ((exact'.units 3 : ℚ) / 10 ^ 3) := by
  have expression : optionValue? "-force_key_frames" j.codecArguments =
      some ("expr:gte(t,n_forced*" ++ length j.segmentSeconds ++ ")") := by
    rw [codecArguments,encodes,video]
    rfl
  rw [forcedEvery?,expression]
  simp only [Option.bind_eq_bind,Option.bind_some,String.toList_append,List.append_assoc,Text.dropStart?_append,
    Text.dropEnd?_append,length,String.toList_ofList]
  exact Binary64.rational?_fixed finite positive (by decide)

/-- The cuts of a run over a grid are a cell apart, counted from its start. -/
theorem IsRange.cut_sub_start {seconds : Float} {s : Stream} {id : RepresentationId} {settings : Encoding.Settings}
    (range : j.IsRange) (made : j.rendering = encodedRendering seconds s id settings) {k : Nat} {cut : ℚ}
    (found : (j.cutTimes (.exact exactSeconds))[k]? = some cut) :
    cut - j.start (.exact exactSeconds) = (k + 1) * exactSeconds s (Segment.spacingTicks seconds s.timeBase) := by
  have nonempty := range.nonempty
  have inside := range.inside
  have known : j.first < j.rendering.segmentCount := by omega
  obtain ⟨begin,start⟩ := Rendering.segmentStart?_of_lt known
  rw [range.cutTimes_eq,List.getElem?_map] at found
  obtain ⟨tick,there,rfl⟩ := Option.map_eq_some_iff.mp found
  rw [getElem?_cutTicks] at there
  have spacing : max (Segment.spacingTicks seconds s.timeBase) 1 = Segment.spacingTicks seconds s.timeBase := by
    rw [Segment.spacingTicks]
    split <;> omega
  split_ifs at there
  rw [start_eq start]
  rw [made] at start there ⊢
  rw [Segment.getElem?_starts_grid start,Segment.getElem?_starts_grid there,spacing]
  change exactSeconds s _ - exactSeconds s _ = _
  simp only [exactSeconds]
  push_cast
  ring

/-- The `k`-th keyframe that is forced in a run over a grid is `k` times as far from the `k`-th cut as the printed
    length is from that of a cell. So every forced keyframe meets its cut exactly if the run is short enough for that
    difference. -/
theorem forced_keyframes_meet_cuts_iff {s : Stream} {id : RepresentationId} {settings : Encoding.Settings}
    {exact' : Binary64.Exact} (made : j.rendering = encodedRendering j.segmentSeconds s id settings)
    (video : s.kind = .video) (finite : Binary64.value j.segmentSeconds = .finite exact')
    (positive : exact'.negative = false) (range : j.IsRange) :
    ∃ every, j.forcedEvery? = some every ∧
      (∀ k < j.last - j.first - 1, ∃ cut, (j.cutTimes (.exact exactSeconds))[k]? = some cut ∧
        |(k + 1) * every - (cut - j.start (.exact exactSeconds))| = (k + 1) * |every - j.cellSeconds|) ∧
      (j.KeyframesMeetCuts every ↔ (j.last - j.first - 1 : Nat) * |every - j.cellSeconds| ≤ cutTolerance) := by
  have encodes : j.rendering.representation.delivery = .encode settings := by
    rw [made]
    simp only [encodedRendering,Representation.encoded,video]
  have video' : j.rendering.kind = .video := by rwa [made]
  have cell : j.cellSeconds = exactSeconds s (Segment.spacingTicks j.segmentSeconds s.timeBase) := by
    rw [cellSeconds,made]
    rfl
  have count : (j.cutTimes (.exact exactSeconds)).length = j.last - j.first - 1 := by
    rw [range.cutTimes_eq,List.length_map,range.length_cutTicks,Nat.sub_sub]
  generalize forced : (exact'.units 3 : ℚ) / 10 ^ 3 = every
  have apart {k : Nat} {cut : ℚ} (found : (j.cutTimes (.exact exactSeconds))[k]? = some cut) :
      |(k + 1) * every - (cut - j.start (.exact exactSeconds))| = (k + 1) * |every - j.cellSeconds| := by
    have forward : (0 : ℚ) ≤ k + 1 := by positivity
    rw [range.cut_sub_start made found,← cell,← mul_sub,abs_mul,abs_of_nonneg forward]
  refine ⟨every,forced ▸ forcedEvery?_eq encodes video' finite positive,?_,?_⟩
  · intro k below
    have inside : k < (j.cutTimes (.exact exactSeconds)).length := count ▸ below
    exact ⟨_,List.getElem?_eq_getElem inside,apart (List.getElem?_eq_getElem inside)⟩
  · constructor
    · intro meets
      -- the last cut is the farthest from its keyframe, if there is a cut at all
      cases cuts : j.last - j.first - 1 with
      | zero => rw [Nat.cast_zero,zero_mul,cutTolerance]; norm_num
      | succ k =>
        have inside : k < (j.cutTimes (.exact exactSeconds)).length := by omega
        have last := meets k _ (List.getElem?_eq_getElem inside)
        rw [apart (List.getElem?_eq_getElem inside)] at last
        rwa [Nat.cast_succ]
    · intro short k cut found
      have below : k + 1 ≤ j.last - j.first - 1 := count ▸ (List.getElem?_eq_some_iff.mp found).1
      rw [apart found]
      calc (k + 1) * |every - j.cellSeconds|
        _ ≤ (j.last - j.first - 1 : Nat) * |every - j.cellSeconds| := by
          exact mul_le_mul_of_nonneg_right (by exact_mod_cast below) (abs_nonneg _)
        _ ≤ cutTolerance := short

/-- The whole of a film encoded afresh with segments of about five seconds, two of them. -/
def twoSegments (s : Stream) : Job where
  run := default
  source := "film.mkv"
  rendering := encodedRendering 5.0 s (.preset "360p/500kbps") (.video Encoding.preserveAspect 360 500000 s.width s.height)
  first := 0
  last := 2
  directory := "run"
  segmentSeconds := 5.0
  progressUrl := none

theorem value_five : Binary64.value 5.0 = .finite ⟨false,5 * 2 ^ 50,-50⟩ := by decide +kernel

theorem units_five : Binary64.Exact.units 3 ⟨false,5 * 2 ^ 50,-50⟩ = 5000 := by decide

theorem forcedEvery?_twoSegments {s : Stream} (video : s.kind = .video) : (twoSegments s).forcedEvery? = some 5 := by
  have encodes : ∃ settings, (twoSegments s).rendering.representation.delivery = .encode settings := by
    simp [twoSegments,encodedRendering,Representation.encoded,video]
  obtain ⟨settings,encodes⟩ := encodes
  rw [forcedEvery?_eq encodes video value_five rfl,units_five]
  norm_num

theorem film_keyframes_meet_cuts : (twoSegments film).IsRange ∧ (twoSegments film).forcedEvery? = some 5 ∧
    (twoSegments film).KeyframesMeetCuts 5 := by
  have range : (twoSegments film).IsRange :=
    ⟨by decide +kernel,by decide,by decide +kernel,by decide⟩
  obtain ⟨every,forced,_,meets⟩ := forced_keyframes_meet_cuts_iff (j := twoSegments film) rfl rfl value_five rfl range
  have five : (twoSegments film).forcedEvery? = some 5 := forcedEvery?_twoSegments rfl
  obtain rfl : 5 = every := Option.some.inj (five.symm.trans forced)
  refine ⟨range,five,meets.mpr ?_⟩
  have spacing : Segment.spacingTicks 5.0 ⟨1,1⟩ = 5 := by decide +kernel
  have cell : (twoSegments film).cellSeconds = 5 := by
    change exactSeconds film (Segment.spacingTicks 5.0 ⟨1,1⟩) = 5
    norm_num [spacing,exactSeconds,film]
  rw [cell,sub_self,abs_zero,mul_zero,cutTolerance]
  norm_num

/-- Ten seconds and a little more of a film whose ticks are 1.001 thirtieths of a second. -/
def ntscStream : Stream := { film with timeBase := ⟨1001,30000⟩, durationTicks := 300, fits := by decide }

/-- Where no whole number of ticks lasts five seconds, a keyframe is forced five thousandths of a second before
    the first cut. -/
theorem ntsc_keyframe_misses_cut : (twoSegments ntscStream).IsRange ∧ (twoSegments ntscStream).forcedEvery? = some 5 ∧
    (twoSegments ntscStream).start (.exact exactSeconds) = 0 ∧
    (twoSegments ntscStream).cutTimes (.exact exactSeconds) = [5 + 5 / 1000] ∧
    ¬ (twoSegments ntscStream).KeyframesMeetCuts 5 := by
  have starts : (twoSegments ntscStream).rendering.starts = [0,150] := by decide +kernel
  have range : (twoSegments ntscStream).IsRange :=
    ⟨by decide +kernel,by decide,by decide +kernel,by decide⟩
  have begins : (twoSegments ntscStream).start (.exact exactSeconds) = 0 := by
    rw [start_eq (a := 0) (by rw [Rendering.segmentStart?,starts]; rfl)]
    norm_num [exactSeconds]
  have cuts : (twoSegments ntscStream).cutTimes (.exact exactSeconds) = [5 + 5 / 1000] := by
    have cut : (twoSegments ntscStream).rendering.startOf? (.exact exactSeconds) 1 = some (5 + 5 / 1000) := by
      rw [Rendering.startOf?,Rendering.segmentStart?,starts]
      change some (exactSeconds ntscStream 150) = _
      norm_num [exactSeconds,ntscStream]
    exact List.filterMap_cons_some cut
  refine ⟨range,forcedEvery?_twoSegments rfl,begins,cuts,?_⟩
  intro meets
  have near := meets 0 _ (by rw [cuts]; rfl)
  rw [begins,cutTolerance,abs_le] at near
  norm_num at near

end Job
end Encoder
end Playout
