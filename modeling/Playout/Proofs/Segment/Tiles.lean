import Playout.Segment.Plan

/-!
Plans tile a stream. Whatever the keyframes and the spacing are, the intervals of
a plan are not empty and touch one another, from tick zero to the end.
-/
namespace Playout.Segment

/-- Intervals tile a range when each is not empty and starts where the one before it ends. -/
inductive Tiles : Int → List Interval → Int → Prop
  | done {a : Int} : Tiles a [] a
  | next {a b c : Int} {rest : List Interval} (longer : a < b) (tiles : Tiles b rest c) : Tiles a (⟨a,b⟩ :: rest) c

variable {a b c : Int} {intervals rest : List Interval} {i : Interval}

theorem Tiles.le (tiles : Tiles a intervals c) : a ≤ c := by
  induction tiles with
  | done => exact Int.le_refl _
  | next longer _ ih => exact Int.le_of_lt (Int.lt_of_lt_of_le longer ih)

theorem Tiles.ne_nil (tiles : Tiles a intervals c) (longer : a < c) : intervals ≠ [] := by
  rintro rfl
  cases tiles
  exact Int.lt_irrefl a longer

/-- One more interval after a tiling. -/
theorem Tiles.concat (tiles : Tiles a intervals b) (longer : b < c) : Tiles a (intervals ++ [⟨b,c⟩]) c := by
  induction tiles with
  | done => exact .next longer .done
  | next first _ ih => exact .next first (ih longer)

theorem Tiles.bounds (tiles : Tiles a intervals c) (member : i ∈ intervals) : a ≤ i.first ∧ i.first < i.last ∧ i.last ≤ c := by
  induction tiles with
  | done => cases member
  | next longer tiles ih =>
    rcases List.mem_cons.mp member with rfl | later
    · exact ⟨Int.le_refl _,longer,tiles.le⟩
    · obtain ⟨first,inside,last⟩ := ih later
      exact ⟨by omega,inside,last⟩

/-! ### Keyframes -/

theorem dropRepeats_cons (a : Int) (l : List Int) : ∃ rest, dropRepeats (a :: l) = a :: rest := by
  induction l generalizing a with
  | nil => exact ⟨[],rfl⟩
  | cons b l ih =>
    by_cases same : a = b
    · subst same
      rw [dropRepeats,if_pos rfl]
      exact ih a
    · exact ⟨_,by rw [dropRepeats,if_neg same]⟩

theorem mem_dropRepeats {k : Int} {l : List Int} (member : k ∈ l) : k ∈ dropRepeats l := by
  fun_induction dropRepeats l with
  | case1 b rest ih =>
    rcases List.mem_cons.mp member with rfl | later
    · exact ih List.mem_cons_self
    · exact ih later
  | case2 a b rest differs ih =>
    rcases List.mem_cons.mp member with rfl | later
    · exact List.mem_cons_self
    · exact List.mem_cons_of_mem _ (ih later)
  | case3 => exact member

theorem dropRepeats_sublist (l : List Int) : (dropRepeats l).Sublist l := by
  fun_induction dropRepeats l with
  | case1 b rest ih => exact ih.cons b
  | case2 a b rest differs ih => exact ih.cons_cons a
  | case3 => exact List.Sublist.refl _

/-- The intervals between bounds in order tile the range from the first bound to the last. -/
theorem tiles_between (a : Int) (l : List Int) (c : Int) (sorted : (a :: (l ++ [c])).Pairwise (· ≤ ·)) :
    Tiles a (between (a :: (l ++ [c]))) c := by
  induction l generalizing a with
  | nil =>
    have ordered : a ≤ c := List.rel_of_pairwise_cons sorted (by simp)
    rw [List.nil_append,between]
    split
    · exact .next (by assumption) .done
    · obtain rfl : a = c := by omega
      exact .done
  | cons b l ih =>
    have ordered : a ≤ b := List.rel_of_pairwise_cons sorted (by simp)
    have tiles : Tiles b (between (b :: (l ++ [c]))) c := ih b sorted.of_cons
    rw [List.cons_append,between]
    split
    · exact .next (by assumption) tiles
    · obtain rfl : a = b := by omega
      exact tiles

/-- Intervals start at bounds. -/
theorem first_mem_of_mem_between {l : List Int} (member : i ∈ between (l ++ [c])) : i.first ∈ l := by
  induction l with
  | nil => cases member
  | cons a l ih =>
    cases l with
    | nil =>
      rw [List.cons_append,List.nil_append,between] at member
      split at member
      · obtain rfl := List.mem_singleton.mp member
        exact List.mem_singleton_self _
      · cases member
    | cons b l =>
      rw [List.cons_append,List.cons_append,between] at member
      split at member
      · rcases List.mem_cons.mp member with rfl | later
        · exact List.mem_cons_self
        · exact List.mem_cons_of_mem _ (ih later)
      · exact List.mem_cons_of_mem _ (ih member)

/-- The bounds of the intervals of keyframes. -/
theorem keyframeIntervals_eq (keyframes : List Int) (duration : Int) :
    ∃ bounds, keyframeIntervals keyframes duration = between (0 :: (bounds ++ [max duration 1])) ∧
      (0 :: bounds).Sublist (0 :: keyframes.filter fun k => 0 < k && k < duration) := by
  obtain ⟨bounds,same⟩ := dropRepeats_cons 0 (keyframes.filter fun k => 0 < k && k < duration)
  refine ⟨bounds,?_,same ▸ dropRepeats_sublist _⟩
  rw [keyframeIntervals,same,List.cons_append]

/-- Zero and the keyframes within a stream are in order. -/
theorem pairwise_bounds {keyframes : List Int} (duration : Int) (ascending : keyframes.Pairwise (· ≤ ·)) :
    (0 :: keyframes.filter fun k => 0 < k && k < duration).Pairwise (· ≤ ·) := by
  refine List.pairwise_cons.mpr ⟨fun k member => ?_,ascending.filter _⟩
  simp only [List.mem_filter,Bool.and_eq_true,decide_eq_true_eq] at member
  omega

theorem bound_lt {keyframes : List Int} {duration k : Int} (long : 1 ≤ duration)
    (member : k ∈ 0 :: keyframes.filter fun k => 0 < k && k < duration) : k < duration := by
  simp only [List.mem_cons,List.mem_filter,Bool.and_eq_true,decide_eq_true_eq] at member
  omega

/-- The intervals of keyframes tile the stream, wherever the keyframes are. -/
theorem tiles_keyframeIntervals {keyframes : List Int} {duration : Int} (long : 1 ≤ duration)
    (ascending : keyframes.Pairwise (· ≤ ·)) : Tiles 0 (keyframeIntervals keyframes duration) duration := by
  obtain ⟨bounds,same,sublist⟩ := keyframeIntervals_eq keyframes duration
  rw [Int.max_eq_left long] at same
  rw [same]
  have sorted : (0 :: bounds).Pairwise (· ≤ ·) := (pairwise_bounds duration ascending).sublist sublist
  apply tiles_between
  rw [← List.cons_append]
  refine List.pairwise_append.mpr ⟨sorted,List.pairwise_singleton _ _,?_⟩
  intro k member last is_last
  rw [List.mem_singleton.mp is_last]
  exact Int.le_of_lt (bound_lt long (sublist.subset member))

theorem first_mem_of_mem_keyframeIntervals {keyframes : List Int} {duration : Int}
    (member : i ∈ keyframeIntervals keyframes duration) : i.first = 0 ∨ i.first ∈ keyframes := by
  obtain ⟨bounds,same,sublist⟩ := keyframeIntervals_eq keyframes duration
  rw [same,← List.cons_append] at member
  rcases List.mem_cons.mp (sublist.subset (first_mem_of_mem_between member)) with zero | inside
  · exact .inl zero
  · exact .inr ((List.mem_filter.mp inside).1)

/-! ### Merging -/

/-- Where the open segment is closed does not matter: merged intervals tile what they did. -/
theorem tiles_mergeFrom {spacing start cut : Int} (tiles : Tiles a intervals c) (some : intervals ≠ [])
    (before : start ≤ a) : Tiles start (mergeFrom spacing start cut intervals) c := by
  induction tiles generalizing start cut with
  | done => exact absurd rfl some
  | @next a b c rest longer tiles ih =>
    have longer' : start < b := Int.lt_of_le_of_lt before longer
    cases rest with
    | nil =>
      cases tiles
      exact .next longer' .done
    | cons j rest =>
      -- The next segment is open since `b` if a cut is made here, and since `start` otherwise.
      rw [mergeFrom]
      split
      · exact .next longer' (ih (List.cons_ne_nil _ _) (Int.le_refl _))
      · exact ih (List.cons_ne_nil _ _) (Int.le_of_lt longer')
      · simp

/-- Merged intervals start where the first of them or another one did. -/
theorem first_of_mem_mergeFrom {spacing start cut : Int} (tiles : Tiles a intervals c)
    (member : i ∈ mergeFrom spacing start cut intervals) : i.first = start ∨ ∃ j ∈ intervals, j.first = i.first := by
  induction tiles generalizing start cut with
  | done => cases member
  | @next a b c rest longer tiles ih =>
    cases rest with
    | nil =>
      obtain rfl := List.mem_singleton.mp member
      exact .inl rfl
    | cons j rest =>
      have first : j.first = b := by cases tiles; rfl
      have inside {start cut : Int} (later : i ∈ mergeFrom spacing start cut (j :: rest)) :
          i.first = start ∨ ∃ k ∈ (⟨a,b⟩ :: j :: rest : List Interval), k.first = i.first := by
        rcases ih later with at_start | ⟨k,found,same⟩
        · exact .inl at_start
        · exact .inr ⟨k,List.mem_cons_of_mem _ found,same⟩
      rw [mergeFrom] at member
      · split at member
        · rcases List.mem_cons.mp member with rfl | later
          · exact .inl rfl
          · rcases inside later with at_cut | found
            · exact .inr ⟨j,by simp,first.trans at_cut.symm⟩
            · exact .inr found
        · exact inside member
      · simp

/-- A plan with the numbers 0, 1, 2, … whose intervals tile a range. -/
structure Plans (plan : List Planned) (a c : Int) : Prop where
  numbered : plan = number (plan.map (·.interval))
  tiles : Tiles a (plan.map (·.interval)) c

theorem map_interval_number (intervals : List Interval) : (number intervals).map (·.interval) = intervals := by
  rw [number,List.map_map]
  exact List.zipIdx_map_fst 0 intervals

theorem plans_number (tiles : Tiles a intervals c) : Plans (number intervals) a c where
  numbered := by rw [map_interval_number]
  tiles := by rwa [map_interval_number]

theorem plans_mergeIntervals {spacing : Int} (tiles : Tiles a intervals c) (some : intervals ≠ []) :
    Plans (mergeIntervals intervals spacing) a c := by
  cases tiles with
  | done => exact absurd rfl some
  | next longer tiles => exact plans_number (tiles_mergeFrom (.next longer tiles) some (Int.le_refl _))

/-- Merged intervals start where intervals do. -/
theorem first_of_mem_mergeIntervals {spacing : Int} (tiles : Tiles a intervals c)
    (member : i ∈ (mergeIntervals intervals spacing).map (·.interval)) : ∃ j ∈ intervals, j.first = i.first := by
  cases intervals with
  | nil => cases member
  | cons j rest =>
    rw [mergeIntervals,map_interval_number] at member
    rcases first_of_mem_mergeFrom tiles member with same | found
    · exact ⟨j,List.mem_cons_self,same.symm⟩
    · exact found

/-! ### The grid -/

variable {duration spacing : Int}

/-- The cells of a grid reach the end. -/
theorem le_cells_mul (positive : 1 ≤ spacing) : duration ≤ cells duration spacing * spacing := by
  have above := Int.lt_ediv_add_one_mul_self (duration + spacing - 1) (b := spacing) (by omega)
  have count : (duration + spacing - 1) / spacing ≤ cells duration spacing := Int.self_le_toNat _
  have wider := Int.mul_le_mul_of_nonneg_right count (c := spacing) (by omega)
  rw [Int.add_mul] at above
  omega

/-- Every cell of a grid starts before the end. -/
theorem mul_lt_of_lt_cells (positive : 1 ≤ spacing) {k : Nat} (cell : k < cells duration spacing) :
    k * spacing < duration := by
  have below := Int.ediv_mul_le (duration + spacing - 1) (b := spacing) (by omega)
  have count : (k : Int) + 1 ≤ (duration + spacing - 1) / spacing := by
    rw [cells] at cell
    omega
  have narrower := Int.mul_le_mul_of_nonneg_right count (c := spacing) (by omega)
  rw [Int.add_mul] at narrower
  omega

/-- The first cells of a grid tile what they reach into. -/
theorem tiles_cells (positive : 1 ≤ spacing) (long : 1 ≤ duration) (m : Nat)
    (inside : ∀ k < m, (k : Int) * spacing < duration) :
    Tiles 0 ((List.range m).map fun (k : Nat) => ⟨k * spacing,min ((k + 1) * spacing) duration⟩)
      (min (m * spacing) duration) := by
  induction m with
  | zero =>
    have nothing : min (((0 : Nat) : Int) * spacing) duration = 0 := by
      rw [Int.natCast_zero,Int.zero_mul]
      omega
    rw [nothing]
    exact .done
  | succ m ih =>
    have start : (m : Int) * spacing < duration := inside m (Nat.lt_succ_self m)
    have tiles := ih fun k below => inside k (Nat.lt_succ_of_lt below)
    rw [Int.min_eq_left (Int.le_of_lt start)] at tiles
    rw [List.range_succ,List.map_append,Int.natCast_succ]
    refine tiles.concat ?_
    rw [Int.add_mul]
    omega

/-- A grid tiles the stream, whatever the spacing is. -/
theorem plans_grid (long : 1 ≤ duration) (spacing : Int) : Plans (grid duration spacing) 0 duration := by
  have positive : 1 ≤ max spacing 1 := Int.le_max_right _ _
  have tiles := tiles_cells positive long _ fun k cell => mul_lt_of_lt_cells positive cell
  rw [Int.min_eq_right (le_cells_mul positive)] at tiles
  rw [grid,Int.max_eq_left long]
  exact plans_number tiles

/-! ### Plans -/

theorem contiguous_zipIdx (tiles : Tiles a intervals c) (n : Nat) :
    contiguous ((intervals.zipIdx n).map fun (interval,n) => ⟨n,interval⟩) =
      .ok ((intervals.zipIdx n).map fun (interval,n) => ⟨n,interval⟩) := by
  induction tiles generalizing n with
  | done => rfl
  | @next a b c rest longer tiles ih =>
    cases tiles with
    | done => rfl
    | @next _ d _ rest longer' tiles =>
      have tail := ih (n + 1)
      simp only [List.zipIdx_cons,List.map_cons] at tail ⊢
      have follows : follows? ⟨n,⟨a,b⟩⟩ ⟨n + 1,⟨b,d⟩⟩ = .ok () := by
        rw [follows?,if_neg (not_not_intro rfl),if_neg (Nat.not_le.mpr (Nat.lt_succ_self n))]
      rw [contiguous,follows,tail]
      rfl

/-- A plan is accepted as it is. -/
theorem Plans.contiguous {plan : List Planned} (plans : Plans plan a c) : contiguous plan = .ok plan := by
  have accepted := contiguous_zipIdx plans.tiles 0
  rwa [← number,← plans.numbered] at accepted

theorem Plans.numbers {plan : List Planned} (plans : Plans plan a c) :
    plan.map (·.number) = List.range plan.length := by
  rw [plans.numbered,number,List.map_map,List.length_map,List.length_zipIdx,List.range_eq_range']
  exact List.zipIdx_map_snd 0 _

theorem starts_eq_map (plan : List Planned) : starts plan = (plan.map (·.interval)).map (·.first) := by
  rw [starts,List.map_map]
  rfl

end Playout.Segment
