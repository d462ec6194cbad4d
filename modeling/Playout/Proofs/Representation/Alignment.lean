import Mathlib.Data.Rat.Floor
import Playout.Proofs.Representation.Tiling
import Playout.Proofs.Segment.Merging

/-!
Keyframes that follow the grid. When every grid point within a stream is a keyframe, an interval never reaches across
one, so merging closes a segment exactly there, whatever other keyframes there are. What it comes to are the cells of
the grid (`Cells`), and there is only one way to cut a range into cells.
-/
namespace Playout
namespace Segment

/-- Intervals of `spacing` ticks each from one tick to another, the last of them as long as is left. -/
inductive Cells (spacing : Int) : Int → List Interval → Int → Prop
  | last {a c : Int} (longer : a < c) (short : c ≤ a + spacing) : Cells spacing a [⟨a,c⟩] c
  | next {a c : Int} {rest : List Interval} (more : a + spacing < c) (cells : Cells spacing (a + spacing) rest c) :
      Cells spacing a (⟨a,a + spacing⟩ :: rest) c

variable {origin spacing duration a c : Int} {intervals l l' : List Interval} {i : Interval} {keyframes : List Int}

theorem Cells.unique (one : Cells spacing a l c) (other : Cells spacing a l' c) : l = l' := by
  induction one generalizing l' with
  | last longer short =>
    cases other with
    | last => rfl
    | next more => omega
  | next more cells ih =>
    cases other with
    | last longer short => omega
    | next _ cells' => rw [ih cells']

theorem Cells.length_eq (cells : Cells spacing a l c) (inside : i ∈ l.dropLast) : i.length = spacing := by
  induction cells with
  | last => cases inside
  | @next a c rest more cells ih =>
    cases rest with
    | nil => cases inside
    | cons j rest =>
      rcases List.mem_cons.mp inside with rfl | later
      · exact add_sub_cancel_left a spacing
      · exact ih later

/-- All cells but the last are full, and the last is not empty. -/
theorem Cells.count (cells : Cells spacing a l c) :
    (l.length - 1 : Int) * spacing < c - a ∧ c - a ≤ l.length * spacing := by
  induction cells with
  | last longer short =>
    simp only [List.length_singleton,Int.natCast_one,Int.sub_self,Int.zero_mul,Int.one_mul]
    omega
  | next more cells ih =>
    rw [List.length_cons,Int.natCast_succ,Int.add_sub_cancel,Int.add_mul,Int.one_mul]
    rw [Int.sub_mul,Int.one_mul] at ih
    omega

theorem Cells.count_eq_ceil (positive : 1 ≤ spacing) (cells : Cells spacing 0 l duration) :
    (l.length : Int) = ⌈(duration : ℚ) / spacing⌉ := by
  have wide : (0 : ℚ) < spacing := by exact_mod_cast positive
  obtain ⟨low,high⟩ := cells.count
  rw [Int.sub_zero] at low high
  refine (Int.ceil_eq_iff.mpr ⟨?_,?_⟩).symm
  · rw [lt_div_iff₀ wide]
    exact_mod_cast low
  · rw [div_le_iff₀ wide]
    exact_mod_cast high

/-! ### The grid -/

theorem cells_range' (n k : Nat) (start : k * spacing < duration) (inside : ∀ m < k + n, (m : Int) * spacing < duration)
    (reaches : duration ≤ (k + n : Nat) * spacing) :
    Cells spacing (k * spacing) ((List.range' k n).map fun (k : Nat) => ⟨k * spacing,min ((k + 1) * spacing) duration⟩)
      duration := by
  induction n generalizing k with
  | zero =>
    rw [Nat.add_zero] at reaches
    omega
  | succ n ih =>
    have onward : ((k : Int) + 1) * spacing = k * spacing + spacing := by rw [Int.add_mul,Int.one_mul]
    rw [List.range'_succ,List.map_cons]
    cases n with
    | zero =>
      rw [Nat.zero_add,Int.natCast_succ,onward] at reaches
      rw [onward,Int.min_eq_right reaches]
      exact .last start reaches
    | succ n =>
      have next : (k : Int) * spacing + spacing < duration := by
        have below := inside (k + 1) (by omega)
        rwa [Int.natCast_succ,onward] at below
      have cells := ih (k + 1) (by rwa [Int.natCast_succ,onward]) (fun m below => inside m (by omega))
        (by rwa [Nat.add_right_comm k 1])
      rw [Int.natCast_succ,onward] at cells
      rw [onward,Int.min_eq_left (Int.le_of_lt next)]
      exact .next next cells

theorem cells_grid (long : 1 ≤ duration) (positive : 1 ≤ spacing) :
    Cells spacing 0 ((grid duration spacing).map (·.interval)) duration := by
  have start : (0 : Nat) * spacing = 0 := Int.zero_mul spacing
  have inside : ∀ m < 0 + cells duration spacing, (m : Int) * spacing < duration :=
    fun m below => mul_lt_of_lt_cells positive (by omega)
  have reaches : duration ≤ (0 + cells duration spacing : Nat) * spacing := by
    rw [Nat.zero_add]
    exact le_cells_mul positive
  have cells := cells_range' (cells duration spacing) 0 (by omega) inside reaches
  rw [grid,map_interval_number,Int.max_eq_left positive,Int.max_eq_left long,List.range_eq_range']
  rwa [start] at cells

/-! ### Merging -/

theorem pointAfter_pointAfter (positive : 1 ≤ spacing) (origin a : Int) :
    pointAfter origin spacing (pointAfter origin spacing a) = pointAfter origin spacing a + spacing := by
  have next : cell origin spacing (pointAfter origin spacing a) = cell origin spacing a + 1 := by
    rw [cell,pointAfter,add_sub_cancel_left,Int.mul_ediv_cancel _ (by omega)]
  rw [pointAfter,next,Int.add_mul,Int.one_mul,← Int.add_assoc]
  rfl

/-- Some intervals start at every grid point between two ticks. -/
def MeetsGrid (origin spacing a c : Int) (intervals : List Interval) : Prop :=
  ∀ m : Int, a < origin + m * spacing → origin + m * spacing < c → origin + m * spacing ∈ intervals.map (·.first)

theorem MeetsGrid.tail {b : Int} (meets : MeetsGrid origin spacing a c (⟨a,b⟩ :: intervals)) (longer : a < b) :
    MeetsGrid origin spacing b c intervals := by
  intro m after before
  rcases List.mem_cons.mp (meets m (longer.trans after) before) with same | later
  · exact absurd same (Int.ne_of_gt (longer.trans after))
  · exact later

/-- The first grid point after the start of an interval is not before its end, unless it is behind all intervals. -/
theorem MeetsGrid.le_pointAfter {b : Int} (meets : MeetsGrid origin spacing a c (⟨a,b⟩ :: intervals))
    (positive : 1 ≤ spacing) (tiles : Tiles b intervals c) (before : pointAfter origin spacing a < c) :
    b ≤ pointAfter origin spacing a := by
  have after : a < pointAfter origin spacing a := lt_pointAfter positive
  rcases List.mem_cons.mp (meets _ after before) with same | later
  · exact absurd same (Int.ne_of_gt after)
  · obtain ⟨i,found,same⟩ := List.mem_map.mp later
    rw [← pointAfter] at same
    exact same ▸ (tiles.bounds found).1

/-- Merging leaves the cells of the grid. While a segment is open, the next grid point is the end of its cell. -/
theorem cells_mergeFrom (positive : 1 ≤ spacing) (tiles : Tiles a intervals c) (some : intervals ≠ [])
    (meets : MeetsGrid origin spacing a c intervals) {start : Int}
    (open_cell : pointAfter origin spacing a = start + spacing) :
    Cells spacing start (mergeFrom spacing start (pointAfter origin spacing a) intervals) c := by
  induction tiles generalizing start with
  | done => exact absurd rfl some
  | @next a b c rest longer tiles ih =>
    have ahead : pointAfter origin spacing a ≤ a + spacing := pointAfter_le positive
    have after : a < pointAfter origin spacing a := lt_pointAfter positive
    have reached : pointAfter origin spacing a < c → b ≤ pointAfter origin spacing a :=
      meets.le_pointAfter positive tiles
    by_cases more : rest = []
    · subst more
      obtain rfl : b = c := by cases tiles; rfl
      have forward : start < b := by omega
      have near : b ≤ start + spacing := by omega
      exact .last forward near
    · have inside : b < c := by
        cases tiles with
        | done => exact absurd rfl more
        | next longer' tiles => exact Int.lt_of_lt_of_le longer' tiles.le
      rw [mergeFrom_next positive longer more]
      split
      case isTrue passed =>
        have here : b = pointAfter origin spacing a := by omega
        have again : pointAfter origin spacing b = b + spacing := by
          rw [here]
          exact pointAfter_pointAfter positive origin a
        have cells := ih more (meets.tail longer) again
        rw [show b = start + spacing by omega] at cells ⊢
        exact .next (by omega) cells
      case isFalse before =>
        have stays : pointAfter origin spacing b = pointAfter origin spacing a := by
          rw [← nextCut_pointAfter positive (Int.le_of_lt longer),nextCut,if_pos (Int.not_le.mp before)]
        exact ih more (meets.tail longer) (stays.trans open_cell)

theorem cells_mergeIntervals (positive : 1 ≤ spacing) (tiles : Tiles a intervals c) (some : intervals ≠ [])
    (meets : MeetsGrid a spacing a c intervals) :
    Cells spacing a ((mergeIntervals intervals spacing).map (·.interval)) c := by
  have merged := cells_mergeFrom positive tiles some meets (pointAfter_origin a spacing)
  rw [pointAfter_origin] at merged
  cases tiles with
  | done => exact absurd rfl some
  | next longer tiles => rwa [mergeIntervals,map_interval_number,Int.max_eq_left positive]

/-! ### Keyframes -/

/-- Every bound before the last is where an interval starts, also one that is repeated. -/
theorem mem_first_between {k : Int} (a : Int) (l : List Int) (sorted : (a :: l).Pairwise (· ≤ ·))
    (before : ∀ k ∈ a :: l, k < c) (member : k ∈ a :: l) : k ∈ (between (a :: (l ++ [c]))).map (·.first) := by
  induction l generalizing a with
  | nil =>
    obtain rfl := List.mem_singleton.mp member
    rw [List.nil_append,between,if_pos (before k member)]
    exact List.mem_cons_self
  | cons b l ih =>
    have later : k ∈ b :: l → k ∈ (between (b :: (l ++ [c]))).map (·.first) :=
      ih b sorted.of_cons fun k member => before k (List.mem_cons_of_mem a member)
    have ordered : a ≤ b := List.rel_of_pairwise_cons sorted (by simp)
    rw [List.cons_append,between]
    split
    · rcases List.mem_cons.mp member with rfl | member
      · exact List.mem_cons_self
      · exact List.mem_cons_of_mem _ (later member)
    · obtain rfl : a = b := by omega
      rcases List.mem_cons.mp member with rfl | member
      · exact later List.mem_cons_self
      · exact later member

/-- Every grid point within the stream is a keyframe. -/
def FollowsGrid (spacing duration : Int) (keyframes : List Int) : Prop :=
  ∀ m : Int, 0 < m * spacing → m * spacing < duration → m * spacing ∈ keyframes

theorem FollowsGrid.meetsGrid (follows : FollowsGrid spacing duration keyframes) (long : 1 ≤ duration)
    (ascending : keyframes.Pairwise (· ≤ ·)) :
    MeetsGrid 0 spacing 0 duration (keyframeIntervals keyframes duration) := by
  intro m after before
  rw [Int.zero_add] at after before ⊢
  have inside : m * spacing ∈ keyframes.filter fun k => 0 < k && k < duration := by
    simp [follows m after before,after,before]
  obtain ⟨bounds,same⟩ := dropRepeats_cons 0 (keyframes.filter fun k => 0 < k && k < duration)
  have bound : m * spacing ∈ 0 :: bounds := same ▸ mem_dropRepeats (List.mem_cons_of_mem 0 inside)
  have sublist : (0 :: bounds).Sublist (0 :: keyframes.filter fun k => 0 < k && k < duration) :=
    same ▸ dropRepeats_sublist _
  rw [keyframeIntervals,same,List.cons_append,Int.max_eq_left long]
  exact mem_first_between 0 bounds ((pairwise_bounds duration ascending).sublist sublist)
    (fun k member => bound_lt long (sublist.subset member)) bound

/-- Keyframes that follow the grid lead to the plan of the grid. -/
theorem mergeIntervals_eq_grid (long : 1 ≤ duration) (positive : 1 ≤ spacing) (ascending : keyframes.Pairwise (· ≤ ·))
    (follows : FollowsGrid spacing duration keyframes) :
    mergeIntervals (keyframeIntervals keyframes duration) spacing = grid duration spacing := by
  have tiles : Tiles 0 (keyframeIntervals keyframes duration) duration := tiles_keyframeIntervals long ascending
  have merged := cells_mergeIntervals positive tiles (tiles.ne_nil long) (follows.meetsGrid long ascending)
  have same := merged.unique (cells_grid long positive)
  have plans : Plans (mergeIntervals (keyframeIntervals keyframes duration) spacing) 0 duration :=
    plans_mergeIntervals tiles (tiles.ne_nil long)
  rw [plans.numbered,same,← (plans_grid long spacing).numbered]

end Segment
open Segment

variable {segmentSeconds : Float} {s : Stream} {id : RepresentationId} {keyframes frames : List Int} {r : Rendering}

/-- A stream that is delivered as it is is cut where it is cut when it is encoded afresh. -/
theorem copyPlan_eq_grid (long : 1 ≤ s.durationTicks) {spacing : Int} (positive : 1 ≤ spacing)
    (ascending : keyframes.Pairwise (· ≤ ·)) (follows : FollowsGrid spacing s.durationTicks keyframes) :
    copyPlan spacing s keyframes = grid s.durationTicks spacing := by
  rw [copyPlan]
  cases s.kind with
  | audio => rfl
  | subtitle => rfl
  | video => exact mergeIntervals_eq_grid long positive ascending follows

/-- Both plans are one when every grid point within the stream is a keyframe, whatever other keyframes there are: as
    many segments as cells of the grid are begun, all of them full but the last. So the renderings of such a stream have
    the same boundaries, whether it is delivered as it is or encoded afresh. -/
theorem planners_agree_on_grid {duration spacing : Int} (long : 1 ≤ duration) (positive : 1 ≤ spacing)
    (ascending : keyframes.Pairwise (· ≤ ·)) (follows : FollowsGrid spacing duration keyframes) :
    mergeIntervals (keyframeIntervals keyframes duration) spacing = grid duration spacing ∧
      ((grid duration spacing).length : Int) = ⌈(duration : ℚ) / spacing⌉ ∧
      (∀ j ∈ (grid duration spacing).dropLast, j.interval.length = spacing) ∧
      ∀ segmentSeconds s id frames r, s.durationTicks = duration → spacingTicks segmentSeconds s.timeBase = spacing →
        id ≠ .direct → resolve segmentSeconds s id frames = .ok r →
        ∃ d, resolve segmentSeconds s .direct keyframes = .ok d ∧ d.starts = r.starts ∧
          ∀ i, d.segmentEnd? i = r.segmentEnd? i := by
  have cells : Cells spacing 0 ((grid duration spacing).map (·.interval)) duration := cells_grid long positive
  refine ⟨mergeIntervals_eq_grid long positive ascending follows,?_,?_,?_⟩
  · rw [← cells.count_eq_ceil positive,List.length_map]
  · intro j member
    have inside := List.mem_map_of_mem (f := (·.interval)) member
    rw [List.map_dropLast] at inside
    exact cells.length_eq inside
  · rintro segmentSeconds s id frames r rfl rfl afresh resolved
    obtain ⟨rfl,same⟩ := resolve_eq_ok resolved
    have alike : (copiedRendering segmentSeconds r.stream keyframes).starts = r.starts := by
      rw [same,planOf,if_neg afresh,copiedRendering,copyPlan_eq_grid long positive ascending follows]
    refine ⟨_,rfl,alike,fun i => ?_⟩
    rw [Rendering.segmentEnd?,Rendering.segmentEnd?,alike]
    rfl

theorem film_cut_alike : FollowsGrid 4 10 [-3,0,2,4,4,8,9,15] ∧
    mergeIntervals (keyframeIntervals [-3,0,2,4,4,8,9,15] 10) 4 = [⟨0,⟨0,4⟩⟩,⟨1,⟨4,8⟩⟩,⟨2,⟨8,10⟩⟩] ∧
    grid 10 4 = [⟨0,⟨0,4⟩⟩,⟨1,⟨4,8⟩⟩,⟨2,⟨8,10⟩⟩] ∧
    ∃ d r, resolve 4.0 film .direct [-3,0,2,4,4,8,9,15] = .ok d ∧ resolve 4.0 film (.preset "360p/500kbps") [] = .ok r ∧
      d.starts = r.starts ∧ r.starts = [0,4,8] := by
  have follows : FollowsGrid 4 10 [-3,0,2,4,4,8,9,15] := by
    intro m after before
    obtain rfl | rfl : m = 1 ∨ m = 2 := by omega
    all_goals decide
  have plan : grid 10 4 = [⟨0,⟨0,4⟩⟩,⟨1,⟨4,8⟩⟩,⟨2,⟨8,10⟩⟩] := by decide
  obtain ⟨merged,_,_,alike⟩ := planners_agree_on_grid (by decide) (by decide) (by decide) follows
  obtain ⟨d,direct,same,_⟩ := alike 4.0 film (.preset "360p/500kbps") [] _ rfl (by decide) (by decide) rfl
  exact ⟨follows,merged.trans plan,plan,d,_,direct,rfl,same,congrArg starts plan⟩

end Playout
