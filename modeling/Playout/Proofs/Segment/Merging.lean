import Playout.Proofs.Segment.Tiles

/-!
Merged intervals in closed form. The loop waits for one grid point at a time
(`pointAfter`), which is always the first one after every end so far. So a cut is
made at the end of each interval that a grid point lies in, and nowhere else
before the last end.
-/
namespace Playout.Segment

variable {origin spacing a b c : Int} {intervals rest : List Interval} {i : Interval}

/-! ### The grid -/

/-- The number of the grid cell that a tick is in, where cells contain their first tick. -/
def cell (origin spacing tick : Int) : Int := (tick - origin) / spacing

/-- The first grid point after a tick. -/
def pointAfter (origin spacing tick : Int) : Int := origin + (cell origin spacing tick + 1) * spacing

/-- A grid point lies after the first of two ticks and not after the second. -/
def Passes (origin spacing a b : Int) : Prop := ∃ m : Int, a < origin + m * spacing ∧ origin + m * spacing ≤ b

theorem cell_origin (origin spacing : Int) : cell origin spacing origin = 0 := by
  rw [cell,Int.sub_self,Int.zero_ediv]

theorem pointAfter_origin (origin spacing : Int) : pointAfter origin spacing origin = origin + spacing := by
  rw [pointAfter,cell_origin,Int.zero_add,Int.one_mul]

theorem cell_mono (positive : 1 ≤ spacing) (ordered : a ≤ b) : cell origin spacing a ≤ cell origin spacing b :=
  Int.ediv_le_ediv (by omega) (by omega)

theorem lt_pointAfter (positive : 1 ≤ spacing) : a < pointAfter origin spacing a := by
  have above : a - origin < (cell origin spacing a + 1) * spacing := Int.lt_ediv_add_one_mul_self _ (by omega)
  rw [pointAfter]
  omega

theorem pointAfter_le (positive : 1 ≤ spacing) : pointAfter origin spacing a ≤ a + spacing := by
  have below : cell origin spacing a * spacing ≤ a - origin := Int.ediv_mul_le _ (by omega)
  rw [pointAfter,Int.add_mul]
  omega

/-- A point has passed when the cell is another one. -/
theorem pointAfter_le_iff (positive : 1 ≤ spacing) :
    pointAfter origin spacing a ≤ b ↔ cell origin spacing a < cell origin spacing b := by
  have divide := Int.le_ediv_iff_mul_le (a := cell origin spacing a + 1) (b := b - origin) (c := spacing) (by omega)
  rw [← Int.add_one_le_iff,cell.eq_def _ _ b,divide,pointAfter]
  omega

/-- The first point after a tick is the one to look at. -/
theorem passes_iff (positive : 1 ≤ spacing) : Passes origin spacing a b ↔ pointAfter origin spacing a ≤ b := by
  constructor
  · rintro ⟨m,above,below⟩
    refine Int.le_trans ?_ below
    have later : cell origin spacing a < m := (Int.ediv_lt_iff_lt_mul (by omega)).mpr (by omega)
    have product := Int.mul_le_mul_of_nonneg_right (Int.add_one_le_of_lt later) (c := spacing) (by omega)
    rw [pointAfter]
    omega
  · exact fun below => ⟨cell origin spacing a + 1,lt_pointAfter positive,below⟩

/-- The loop goes on to the first point after the end that it has reached. -/
theorem nextCut_pointAfter (positive : 1 ≤ spacing) (ordered : a ≤ b) :
    nextCut spacing (pointAfter origin spacing a) b = pointAfter origin spacing b := by
  rw [nextCut]
  split
  case isTrue before =>
    have same : cell origin spacing a = cell origin spacing b := by
      have passed : pointAfter origin spacing a ≤ b ↔ cell origin spacing a < cell origin spacing b :=
        pointAfter_le_iff positive
      have monotone : cell origin spacing a ≤ cell origin spacing b := cell_mono positive ordered
      omega
    rw [pointAfter,pointAfter,same]
  case isFalse _ =>
    have shifted : (b - pointAfter origin spacing a) / spacing = cell origin spacing b - (cell origin spacing a + 1) := by
      have parts : b - pointAfter origin spacing a = b - origin - (cell origin spacing a + 1) * spacing := by
        rw [pointAfter]
        omega
      rw [parts,Int.sub_mul_ediv_right _ _ (by omega),cell.eq_def _ _ b]
    have whole : (cell origin spacing b - (cell origin spacing a + 1) + 1) * spacing
        = (cell origin spacing b + 1) * spacing - (cell origin spacing a + 1) * spacing := by
      rw [← Int.sub_mul]
      congr 1
      omega
    rw [shifted,whole,pointAfter,pointAfter]
    omega

/-! ### Cuts -/

/-- The merging of an interval that another one follows. -/
theorem mergeFrom_next (positive : 1 ≤ spacing) (longer : a < b) (more : rest ≠ []) (start : Int) :
    mergeFrom spacing start (pointAfter origin spacing a) (⟨a,b⟩ :: rest) =
      if pointAfter origin spacing a ≤ b then ⟨start,b⟩ :: mergeFrom spacing b (pointAfter origin spacing b) rest
      else mergeFrom spacing start (pointAfter origin spacing b) rest := by
  have ordered : a ≤ b := Int.le_of_lt longer
  rw [mergeFrom]
  · split
    · rw [nextCut_pointAfter positive ordered]
    case isFalse before =>
      have stays : nextCut spacing (pointAfter origin spacing a) b = pointAfter origin spacing b :=
        nextCut_pointAfter positive ordered
      rw [nextCut,if_pos (Int.not_le.mp before)] at stays
      rw [stays]
  · exact more

/-- The grid has a point after the start of an interval and not after its end. -/
def crosses (origin spacing : Int) (i : Interval) : Bool := pointAfter origin spacing i.first ≤ i.last

theorem crosses_eq_true : crosses origin spacing i = true ↔ pointAfter origin spacing i.first ≤ i.last :=
  decide_eq_true_iff

theorem crosses_iff (positive : 1 ≤ spacing) : crosses origin spacing i = true ↔ Passes origin spacing i.first i.last := by
  rw [passes_iff positive,crosses_eq_true]

/-- Segments start at the first tick and where an interval but the last one ends that crosses the grid. -/
theorem starts_mergeFrom (positive : 1 ≤ spacing) (tiles : Tiles a intervals c) (some : intervals ≠ []) (start : Int) :
    (mergeFrom spacing start (pointAfter origin spacing a) intervals).map (·.first) =
      start :: (intervals.dropLast.filter (crosses origin spacing)).map (·.last) := by
  induction tiles generalizing start with
  | done => exact absurd rfl some
  | @next a b c rest longer tiles ih =>
    by_cases more : rest = []
    · subst more
      rfl
    · rw [mergeFrom_next positive longer more,List.dropLast_cons_of_ne_nil more]
      by_cases passed : pointAfter origin spacing a ≤ b
      · have taken : crosses origin spacing ⟨a,b⟩ = true := crosses_eq_true.mpr passed
        rw [if_pos passed,List.filter_cons_of_pos taken,List.map_cons,List.map_cons,ih more b]
      · have skipped : ¬ crosses origin spacing ⟨a,b⟩ = true := fun taken => passed (crosses_eq_true.mp taken)
        rw [if_neg passed,List.filter_cons_of_neg skipped,ih more start]

/-- A segment that is open since less than a cell is closed by an interval that it is less than a cell longer than. -/
theorem short_mergeFrom (positive : 1 ≤ spacing) (tiles : Tiles a intervals c) {start : Int}
    (near : pointAfter origin spacing a ≤ start + spacing) :
    ∀ j ∈ mergeFrom spacing start (pointAfter origin spacing a) intervals,
      ∃ i ∈ intervals, i.last = j.last ∧ j.length < spacing + i.length := by
  induction tiles generalizing start with
  | done => exact fun j member => nomatch member
  | @next a b c rest longer tiles ih =>
    have closes : (⟨start,b⟩ : Interval).length < spacing + (⟨a,b⟩ : Interval).length := by
      have ahead : a < pointAfter origin spacing a := lt_pointAfter positive
      simp only [Interval.length]
      omega
    by_cases more : rest = []
    · subst more
      intro j member
      obtain rfl := List.mem_singleton.mp member
      cases tiles
      exact ⟨_,List.mem_singleton_self _,rfl,closes⟩
    · rw [mergeFrom_next positive longer more]
      have later {start : Int} (near : pointAfter origin spacing b ≤ start + spacing) (j : Interval)
          (member : j ∈ mergeFrom spacing start (pointAfter origin spacing b) rest) :
          ∃ i ∈ ⟨a,b⟩ :: rest, i.last = j.last ∧ j.length < spacing + i.length := by
        obtain ⟨i,found,same⟩ := ih near j member
        exact ⟨i,List.mem_cons_of_mem _ found,same⟩
      split
      case isTrue =>
        intro j member
        rcases List.mem_cons.mp member with rfl | member
        · exact ⟨_,List.mem_cons_self,rfl,closes⟩
        · exact later (pointAfter_le positive) j member
      case isFalse before =>
        have stays : pointAfter origin spacing b = pointAfter origin spacing a := by
          rw [← nextCut_pointAfter positive (Int.le_of_lt longer),nextCut,if_pos (Int.not_le.mp before)]
        exact later (stays ▸ near)

/-! ### What follows from where the cuts are -/

theorem Tiles.apart (tiles : Tiles a intervals c) : intervals.Pairwise fun i j => i.last ≤ j.first := by
  induction tiles with
  | done => exact List.Pairwise.nil
  | next longer tiles ih => exact List.pairwise_cons.mpr ⟨fun j member => (tiles.bounds member).1,ih⟩

/-- An interval that begins before another one ends does not end after it. -/
theorem Tiles.last_le (tiles : Tiles a intervals c) {k : Interval} (here : i ∈ intervals) (there : k ∈ intervals)
    (overlap : i.first < k.last) : i.last ≤ k.last := by
  induction tiles with
  | done => cases here
  | next longer tiles ih =>
    rcases List.mem_cons.mp here with rfl | here
    · rcases List.mem_cons.mp there with rfl | there
      · exact Int.le_refl _
      · obtain ⟨after,longer',_⟩ := tiles.bounds there
        exact Int.le_trans after (Int.le_of_lt longer')
    · rcases List.mem_cons.mp there with rfl | there
      · exact absurd overlap (Int.not_lt.mpr (tiles.bounds here).1)
      · exact ih here there

/-- A range of ticks that no interval starts within lies in one interval. -/
theorem Tiles.holds (tiles : Tiles a intervals c) {x y : Int} (low : a ≤ x) (high : y ≤ c) (longer : x < y)
    (whole : ∀ j ∈ intervals, x < j.first → y ≤ j.first) : ∃ j ∈ intervals, j.first ≤ x ∧ y ≤ j.last := by
  induction tiles with
  | done => omega
  | @next a b c rest longer' tiles ih =>
    by_cases inside : y ≤ b
    · exact ⟨_,List.mem_cons_self,low,inside⟩
    · have starts : b ≤ x := by
        cases tiles with
        | done => omega
        | next longer'' tiles =>
          have next : x < b → y ≤ b := whole ⟨b,_⟩ (List.mem_cons_of_mem _ List.mem_cons_self)
          omega
      obtain ⟨j,found,around⟩ := ih starts high fun j member => whole j (List.mem_cons_of_mem _ member)
      exact ⟨j,List.mem_cons_of_mem _ found,around⟩

theorem Tiles.pairwise_cells (positive : 1 ≤ spacing) (tiles : Tiles a intervals c) :
    (a :: (intervals.dropLast.filter (crosses origin spacing)).map (·.last)).Pairwise
      fun x y => cell origin spacing x < cell origin spacing y := by
  have crossing : ∀ i ∈ intervals.dropLast.filter (crosses origin spacing),
      i ∈ intervals ∧ cell origin spacing i.first < cell origin spacing i.last := by
    intro i member
    obtain ⟨found,passed⟩ := List.mem_filter.mp member
    exact ⟨List.dropLast_subset _ found,(pointAfter_le_iff positive).mp (crosses_eq_true.mp passed)⟩
  refine List.pairwise_cons.mpr ⟨?_,List.pairwise_map.mpr ?_⟩
  · intro e member
    obtain ⟨i,found,rfl⟩ := List.mem_map.mp member
    obtain ⟨there,next⟩ := crossing i found
    exact Int.lt_of_le_of_lt (cell_mono positive (tiles.bounds there).1) next
  · have apart := (tiles.apart.sublist (List.dropLast_sublist _)).sublist (List.filter_sublist (p := crosses origin spacing))
    refine apart.imp_of_mem fun _ later before => ?_
    exact Int.lt_of_le_of_lt (cell_mono positive before) (crossing _ later).2

/-- A plan of merged intervals, on a grid that begins with the first of them. -/
structure IsMerged (origin spacing : Int) (intervals : List Interval) (stop : Int) (plan : List Planned) : Prop where
  numbered : plan.map (·.number) = List.range plan.length
  tiles : Tiles origin (plan.map (·.interval)) stop
  /-- The boundaries between segments are the ends of intervals before the last that a grid point lies in. -/
  cuts : ∀ e, e ∈ (starts plan).tail ↔ ∃ i ∈ intervals.dropLast, i.last = e ∧ Passes origin spacing i.first i.last
  /-- No interval is split. -/
  whole : ∀ i ∈ intervals, ∃ j ∈ plan, j.interval.first ≤ i.first ∧ i.last ≤ j.interval.last
  /-- No two boundaries but the last are in one cell. -/
  apart : (starts plan).Pairwise fun x y => cell origin spacing x < cell origin spacing y
  /-- Each segment ends with an interval that it is less than a cell longer than. -/
  short : ∀ j ∈ plan, ∃ i ∈ intervals, i.last = j.interval.last ∧ j.interval.length < spacing + i.length

/-- Intervals that touch one another are merged where grid points lie, whatever their lengths and the spacing are. -/
theorem merged_at_grid_points (tiles : Tiles a intervals c) (some : intervals ≠ []) (spacing : Int) :
    IsMerged a (max spacing 1) intervals c (mergeIntervals intervals spacing) := by
  have positive : 1 ≤ max spacing 1 := Int.le_max_right _ _
  have plans : Plans (mergeIntervals intervals spacing) a c := plans_mergeIntervals tiles some
  have merged : (mergeIntervals intervals spacing).map (·.interval) =
      mergeFrom (max spacing 1) a (pointAfter a (max spacing 1) a) intervals := by
    cases tiles with
    | done => exact absurd rfl some
    | next => rw [mergeIntervals,map_interval_number,pointAfter_origin]
  have cut : starts (mergeIntervals intervals spacing) =
      a :: (intervals.dropLast.filter (crosses a (max spacing 1))).map (·.last) := by
    rw [starts_eq_map,merged,starts_mergeFrom positive tiles some]
  have cuts : ∀ e, e ∈ (starts (mergeIntervals intervals spacing)).tail ↔
      ∃ i ∈ intervals.dropLast, i.last = e ∧ Passes a (max spacing 1) i.first i.last := by
    intro e
    rw [cut,List.tail_cons,List.mem_map]
    refine exists_congr fun i => ?_
    rw [List.mem_filter,crosses_iff positive,and_assoc,and_comm (a := i.last = e)]
  exact {
    numbered := plans.numbers
    tiles := plans.tiles
    cuts := cuts
    whole := by
      intro i member
      obtain ⟨low,longer,high⟩ := tiles.bounds member
      have uncut : ∀ j ∈ (mergeIntervals intervals spacing).map (·.interval), i.first < j.first → i.last ≤ j.first := by
        intro j found inside
        have start := List.mem_map_of_mem (f := (·.first)) found
        rw [← starts_eq_map,cut] at start
        rcases List.mem_cons.mp start with first | start
        · omega
        · obtain ⟨k,there,same⟩ := List.mem_map.mp start
          have tiled := List.dropLast_subset _ (List.mem_filter.mp there).1
          rw [← same] at inside ⊢
          exact tiles.last_le member tiled inside
      obtain ⟨j,found,around⟩ := plans.tiles.holds low high longer uncut
      obtain ⟨planned,there,rfl⟩ := List.mem_map.mp found
      exact ⟨planned,there,around⟩
    apart := by
      rw [cut]
      exact tiles.pairwise_cells positive
    short := by
      intro j member
      have found := List.mem_map_of_mem (f := (·.interval)) member
      rw [merged] at found
      exact short_mergeFrom positive tiles (pointAfter_le positive) j.interval found }

theorem four_intervals_merged : Tiles 0 [⟨0,1000⟩,⟨1000,6000⟩,⟨6000,10100⟩,⟨10100,10200⟩] 10200 ∧
    mergeIntervals [⟨0,1000⟩,⟨1000,6000⟩,⟨6000,10100⟩,⟨10100,10200⟩] 5000 =
      [⟨0,⟨0,6000⟩⟩,⟨1,⟨6000,10100⟩⟩,⟨2,⟨10100,10200⟩⟩] ∧
    IsMerged 0 5000 [⟨0,1000⟩,⟨1000,6000⟩,⟨6000,10100⟩,⟨10100,10200⟩] 10200
      [⟨0,⟨0,6000⟩⟩,⟨1,⟨6000,10100⟩⟩,⟨2,⟨10100,10200⟩⟩] := by
  have tiles : Tiles 0 [⟨0,1000⟩,⟨1000,6000⟩,⟨6000,10100⟩,⟨10100,10200⟩] 10200 :=
    .next (by decide) (.next (by decide) (.next (by decide) (.next (by decide) .done)))
  have plan : mergeIntervals [⟨0,1000⟩,⟨1000,6000⟩,⟨6000,10100⟩,⟨10100,10200⟩] 5000 =
      [⟨0,⟨0,6000⟩⟩,⟨1,⟨6000,10100⟩⟩,⟨2,⟨10100,10200⟩⟩] := by decide
  exact ⟨tiles,plan,plan ▸ merged_at_grid_points tiles (List.cons_ne_nil _ _) 5000⟩

end Playout.Segment
