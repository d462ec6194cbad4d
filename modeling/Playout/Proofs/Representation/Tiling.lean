import Mathlib.Algebra.Ring.Int.Defs
import Playout.Proofs.Representation.Id
import Playout.Proofs.Segment.Tiles

/-!
The segments of a rendering tile its stream. The rendering keeps only where they
start, so where a segment ends and how long it is are both read off the starts,
the one by looking at the next start and the other by taking differences.
-/
namespace Playout
open Segment

variable {a c : Int} {intervals : List Interval}

/-! ### What is read off the starts -/

/-- The next start, or else the end, is where an interval ends. -/
theorem Segment.Tiles.next_first (tiles : Tiles a intervals c) {n : Nat} {i : Interval} (here : intervals[n]? = some i) :
    ((intervals.map (·.first))[n + 1]?).getD c = i.last := by
  induction tiles generalizing n with
  | done => cases here
  | next longer tiles ih =>
    cases n with
    | zero =>
      cases here
      cases tiles <;> rfl
    | succ n => exact ih here

/-- The differences of the starts are the lengths. -/
theorem Segment.Tiles.differences (tiles : Tiles a intervals c) :
    Rendering.differences (intervals.map (·.first) ++ [c]) = intervals.map (·.length) := by
  induction tiles with
  | done => rfl
  | next longer tiles ih =>
    cases tiles with
    | done => rfl
    | next longer' tiles => exact congrArg (List.cons _) ih

theorem Segment.Tiles.sum_length (tiles : Tiles a intervals c) : (intervals.map (·.length)).sum = c - a := by
  induction tiles with
  | done => exact (Int.sub_self _).symm
  | @next a b c rest longer tiles ih =>
    rw [List.map_cons,List.sum_cons,ih]
    change b - a + (c - b) = c - a
    omega

/-- No interval is longer than what is tiled from zero on. -/
theorem Segment.Tiles.isSigned64_length (tiles : Tiles 0 intervals c) (fits : IsSigned64 c) {i : Interval}
    (member : i ∈ intervals) : IsSigned64 i.length := by
  obtain ⟨low,longer,high⟩ := tiles.bounds member
  have least : minSigned64 ≤ 0 := by decide
  obtain ⟨_,greatest⟩ := fits
  constructor
  · change minSigned64 ≤ i.last - i.first
    omega
  · change i.last - i.first ≤ maxSigned64
    omega

theorem Segment.Tiles.head?_first (tiles : Tiles a intervals c) (longer : a < c) :
    (intervals.map (·.first)).head? = some a := by
  cases tiles with
  | done => exact absurd longer (Int.lt_irrefl a)
  | next => rfl

theorem Segment.Tiles.pairwise_first (tiles : Tiles a intervals c) : (intervals.map (·.first)).Pairwise (· < ·) := by
  induction tiles with
  | done => exact List.Pairwise.nil
  | @next a b c rest longer tiles ih =>
    refine List.pairwise_cons.mpr ⟨?_,ih⟩
    intro start member
    obtain ⟨i,found,rfl⟩ := List.mem_map.mp member
    exact Int.lt_of_lt_of_le longer (tiles.bounds found).1

theorem Segment.Tiles.first_lt (tiles : Tiles a intervals c) {start : Int} (member : start ∈ intervals.map (·.first)) :
    start < c := by
  obtain ⟨i,found,rfl⟩ := List.mem_map.mp member
  obtain ⟨_,longer,inside⟩ := tiles.bounds found
  exact Int.lt_of_lt_of_le longer inside

/-- A rendering whose segments tile its stream. -/
structure Rendering.IsTiling (r : Rendering) : Prop where
  first : r.starts.head? = some 0
  ascending : r.starts.Pairwise (· < ·)
  inside : ∀ start ∈ r.starts, start < r.stream.durationTicks
  next : ∀ i, i + 1 < r.segmentCount → r.segmentEnd? i = r.segmentStart? (i + 1)
  last : ∀ i, i + 1 = r.segmentCount → r.segmentEnd? i = some r.stream.durationTicks
  counted : r.segmentTicks.length = r.segmentCount
  ticks : ∀ i < r.segmentCount, ∃ start stop, r.segmentStart? i = some start ∧ r.segmentEnd? i = some stop ∧
    start < stop ∧ r.segmentTicks[i]? = some (stop - start)
  total : r.segmentTicks.sum = r.stream.durationTicks

/-- Starts of intervals that tile the stream. -/
theorem Rendering.isTiling {r : Rendering} (long : 1 ≤ r.stream.durationTicks)
    (tiles : Tiles 0 intervals r.stream.durationTicks) (same : r.starts = intervals.map (·.first)) : r.IsTiling := by
  have differences : Rendering.differences r.bounds = intervals.map (·.length) := by
    have highest : r.starts.getLast?.getD 0 ≤ r.stream.durationTicks := by
      cases last : r.starts.getLast? with
      | none => exact tiles.le
      | some start =>
        have member : start ∈ intervals.map (·.first) := same ▸ List.mem_of_getLast? last
        exact Int.le_of_lt (tiles.first_lt member)
    rw [bounds,Int.max_eq_left highest,same]
    exact tiles.differences
  have lengths : r.segmentTicks = intervals.map (·.length) := by
    rw [segmentTicks,differences,List.map_map]
    exact List.map_congr_left fun i member => wrapSigned64_of_isSigned64 (tiles.isSigned64_length r.stream.fits member)
  have count : r.segmentCount = intervals.length := by rw [segmentCount,same,List.length_map]
  have inside {i : Nat} (below : i < intervals.length) : i < r.starts.length := by
    rwa [same,List.length_map]
  exact {
    first := same ▸ tiles.head?_first long
    ascending := same ▸ tiles.pairwise_first
    inside := fun start member => tiles.first_lt (same ▸ member)
    next := by
      intro i below
      rw [count] at below
      have there : i + 1 < r.starts.length := inside below
      rw [segmentEnd?,if_pos (by omega),segmentStart?,List.getElem?_eq_getElem there]
      rfl
    last := by
      intro i last
      have past : r.starts[i + 1]? = none := List.getElem?_eq_none (Nat.le_of_eq last.symm)
      have here : i < r.starts.length := Nat.lt_of_succ_le (Nat.le_of_eq last)
      rw [segmentEnd?,if_pos here,past]
      rfl
    counted := by rw [lengths,List.length_map,count]
    ticks := by
      intro i below
      rw [count] at below
      have here : intervals[i]? = some intervals[i] := List.getElem?_eq_getElem below
      refine ⟨intervals[i].first,intervals[i].last,?_,?_,?_,?_⟩
      · rw [segmentStart?,same,List.getElem?_map,here]
        rfl
      · rw [segmentEnd?,if_pos (inside below),same,tiles.next_first here]
      · exact (tiles.bounds (List.getElem_mem below)).2.1
      · rw [lengths,List.getElem?_map,here]
        rfl
    total := by rw [lengths,tiles.sum_length,Int.sub_zero] }

/-! ### Resolved renderings -/

/-- The plan that a representation of a stream is cut by. -/
def planOf (segmentSeconds : Float) (s : Stream) (id : RepresentationId) (keyframes : List Int) : List Planned :=
  let spacing := spacingTicks segmentSeconds s.timeBase
  if id = .direct then copyPlan spacing s keyframes else grid s.durationTicks spacing

variable {segmentSeconds : Float} {s : Stream} {id : RepresentationId} {keyframes : List Int} {r : Rendering}

theorem resolve_eq_ok (resolved : resolve segmentSeconds s id keyframes = .ok r) :
    r.stream = s ∧ r.starts = starts (planOf segmentSeconds s id keyframes) := by
  obtain ⟨rfl,rfl⟩ | ⟨afresh,settings,rfl⟩ := resolve_cases resolved
  · exact ⟨rfl,rfl⟩
  · rw [planOf,if_neg afresh]
    exact ⟨rfl,rfl⟩

theorem plans_copyPlan (spacing : Int) (long : 1 ≤ s.durationTicks) (ascending : keyframes.Pairwise (· ≤ ·)) :
    Plans (copyPlan spacing s keyframes) 0 s.durationTicks := by
  have grid : Plans (grid s.durationTicks spacing) 0 s.durationTicks := plans_grid long spacing
  rw [copyPlan]
  cases s.kind with
  | audio => exact grid
  | subtitle => exact grid
  | video =>
    have tiles := tiles_keyframeIntervals long ascending
    exact plans_mergeIntervals tiles (tiles.ne_nil long)

theorem plans_planOf (long : 1 ≤ s.durationTicks) (ascending : keyframes.Pairwise (· ≤ ·)) :
    Plans (planOf segmentSeconds s id keyframes) 0 s.durationTicks := by
  rw [planOf]
  split
  · exact plans_copyPlan _ long ascending
  · exact plans_grid long _

/-- A video that is delivered as it is starts its segments at keyframes. -/
theorem mem_keyframes_of_mem_starts {spacing : Int} (long : 1 ≤ s.durationTicks) (video : s.kind = .video)
    (ascending : keyframes.Pairwise (· ≤ ·)) {start : Int} (member : start ∈ starts (copyPlan spacing s keyframes)) :
    start = 0 ∨ start ∈ keyframes := by
  rw [starts_eq_map,copyPlan,video] at member
  obtain ⟨i,found,rfl⟩ := List.mem_map.mp member
  obtain ⟨j,found',same⟩ := first_of_mem_mergeIntervals (tiles_keyframeIntervals long ascending) found
  exact same ▸ first_mem_of_mem_keyframeIntervals found'

theorem isTiling_of_resolve (long : 1 ≤ s.durationTicks) (ascending : keyframes.Pairwise (· ≤ ·))
    (resolved : resolve segmentSeconds s id keyframes = .ok r) : r.IsTiling := by
  obtain ⟨rfl,same⟩ := resolve_eq_ok resolved
  exact Rendering.isTiling long (plans_planOf long ascending).tiles (same.trans (starts_eq_map _))

/-- Every rendering that is resolved tiles its stream, for whatever spacing and keyframes. Its plan is accepted
    with the numbers 0, 1, 2, …, and a video that is delivered as it is is cut at keyframes. -/
theorem resolved_rendering_tiles (long : 1 ≤ s.durationTicks) (ascending : keyframes.Pairwise (· ≤ ·))
    (resolved : resolve segmentSeconds s id keyframes = .ok r) :
    r.stream = s ∧ r.IsTiling ∧
      (starts (planOf segmentSeconds s id keyframes) = r.starts ∧
        contiguous (planOf segmentSeconds s id keyframes) = .ok (planOf segmentSeconds s id keyframes) ∧
        (planOf segmentSeconds s id keyframes).map (·.number) = List.range r.segmentCount) ∧
      (id = .direct → s.kind = .video → ∀ start ∈ r.starts, start ≠ 0 → start ∈ keyframes) := by
  have tiling := isTiling_of_resolve long ascending resolved
  obtain ⟨rfl,same⟩ := resolve_eq_ok resolved
  have plans : Plans (planOf segmentSeconds r.stream id keyframes) 0 r.stream.durationTicks :=
    plans_planOf long ascending
  refine ⟨rfl,tiling,⟨same.symm,plans.contiguous,?_⟩,?_⟩
  · rw [plans.numbers,Rendering.segmentCount,same,starts,List.length_map]
  · rintro rfl video start member apart
    rw [same] at member
    exact (mem_keyframes_of_mem_starts long video ascending member).resolve_left apart

/-- A film of ten seconds. -/
def film : Stream where
  index := 0
  duration := 10.0
  timeBase := ⟨1,1⟩
  durationTicks := 10
  codec := "avc1.64001f"
  codecName := "h264"
  bitrate := 1000000
  frameRate := ⟨25,1⟩
  width := 640
  height := 360
  kind := .video
  language := none
  title := none
  isDefault := true

theorem film_tiled_at_keyframes : ∃ r, resolve 5.0 film .direct [0,4,8] = .ok r ∧ r.IsTiling ∧
    ∀ start ∈ r.starts, start ≠ 0 → start = 4 ∨ start = 8 := by
  have ascending : ([0,4,8] : List Int).Pairwise (· ≤ ·) := by decide
  have resolved : resolve 5.0 film .direct [0,4,8] = .ok (copiedRendering 5.0 film [0,4,8]) := rfl
  obtain ⟨_,tiling,_,cut⟩ := resolved_rendering_tiles (by decide) ascending resolved
  refine ⟨_,resolved,tiling,?_⟩
  intro start member apart
  have keyframe : start ∈ ([0,4,8] : List Int) := cut rfl rfl start member apart
  simpa [apart] using keyframe

end Playout
