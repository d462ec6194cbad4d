import Mathlib.Data.List.TakeWhile
import Playout.Playback.Bind
import Playout.Proofs.Representation.Tiling

/-!
From ticks to segments and back. How many starts are not after a tick tells which of them are (`le_iff_of_ascending`),
so looking up the segment of a tick undoes looking up the bounds of a segment. A player that goes on in another
rendering of the stream goes on in the segment that holds the tick that he comes from.
-/
namespace Playout.Rendering

variable {r : Rendering} {i : Nat} {tick : Int}

/-- Segments start in order, the first at tick zero and the last before the stream ends. -/
structure IsCut (r : Rendering) : Prop where
  first : r.starts.head? = some 0
  ascending : r.starts.Pairwise (· < ·)
  last : ∀ start ∈ r.starts.getLast?, start < r.stream.durationTicks

/-- A tick lies within the bounds of a segment. -/
def Encloses (r : Rendering) (i : Nat) (tick : Int) : Prop :=
  ∃ start stop, r.segmentStart? i = some start ∧ r.segmentEnd? i = some stop ∧ start ≤ tick ∧ tick < stop

/-! ### The lookup -/

theorem segmentAt_mono (r : Rendering) {tick tick' : Int} (onward : tick ≤ tick') :
    r.segmentAt tick ≤ r.segmentAt tick' := by
  have longer : ∀ starts : List Int,
      (starts.takeWhile (· ≤ tick)).length ≤ (starts.takeWhile (· ≤ tick')).length := by
    intro starts
    induction starts with
    | nil => exact Nat.le_refl _
    | cons start rest ih =>
      by_cases early : start ≤ tick
      · simp [early,Int.le_trans early onward,ih]
      · simp [early]
  exact Nat.sub_le_sub_right (longer r.starts) 1

theorem segmentAt_lt (some : 0 < r.segmentCount) (tick : Int) : r.segmentAt tick < r.segmentCount := by
  have shorter : (r.starts.takeWhile (· ≤ tick)).length ≤ r.starts.length :=
    (List.takeWhile_sublist _).length_le
  rw [segmentCount] at some
  rw [segmentAt,segmentCount]
  omega

/-- In a list in order the elements that are not after a tick are the first ones. -/
theorem le_iff_of_ascending {starts : List Int} {start : Int} (ascending : starts.Pairwise (· < ·))
    (here : starts[i]? = some start) : start ≤ tick ↔ i < (starts.takeWhile (· ≤ tick)).length := by
  induction starts generalizing i with
  | nil => cases here
  | cons first rest ih =>
    obtain ⟨above,ascending⟩ := List.pairwise_cons.mp ascending
    by_cases early : first ≤ tick
    · rw [List.takeWhile_cons_of_pos (by simpa using early),List.length_cons]
      cases i with
      | zero =>
        obtain rfl := Option.some.inj here
        simp [early]
      | succ i => rw [ih ascending here,Nat.add_lt_add_iff_right]
    · rw [List.takeWhile_cons_of_neg (by simpa using early)]
      have after : first ≤ start := by
        cases i with
        | zero => exact Int.le_of_eq (Option.some.inj here)
        | succ i => exact Int.le_of_lt (above start (List.mem_of_getElem? here))
      simp only [List.length_nil,Nat.not_lt_zero,iff_false]
      omega

/-! ### Bounds -/

theorem IsCut.start_lt {start : Int} (cut : r.IsCut) (member : start ∈ r.starts) : start < r.stream.durationTicks := by
  have some : r.starts ≠ [] := List.ne_nil_of_mem member
  have last := cut.last _ (List.getLast?_eq_some_getLast some)
  have ordered : start ≤ r.starts.getLast some := by
    rw [← List.dropLast_concat_getLast some] at member
    have ascending := cut.ascending
    rw [← List.dropLast_concat_getLast some] at ascending
    rcases List.mem_append.mp member with early | same
    · exact Int.le_of_lt ((List.pairwise_append.mp ascending).2.2 start early _ (List.mem_singleton_self _))
    · exact Int.le_of_eq (List.mem_singleton.mp same)
  omega

theorem IsCut.start_nonneg {start : Int} (cut : r.IsCut) (member : start ∈ r.starts) : 0 ≤ start := by
  have first := cut.first
  have ascending := cut.ascending
  cases starts : r.starts with
  | nil => simp [starts] at first
  | cons zero rest =>
    rw [starts] at first ascending member
    obtain rfl := Option.some.inj first
    rcases List.mem_cons.mp member with rfl | later
    · exact Int.le_refl _
    · exact Int.le_of_lt (List.rel_of_pairwise_cons ascending later)

theorem IsCut.segmentCount_pos (cut : r.IsCut) : 0 < r.segmentCount := by
  rw [segmentCount,List.length_pos_iff]
  intro none
  simpa [none] using cut.first

/-- A segment ends where the next one starts, the last one where the stream does. -/
theorem exists_stop (inside : i < r.segmentCount) : ∃ stop, r.segmentEnd? i = some stop ∧
    (r.starts[i + 1]? = some stop ∨ i + 1 = r.segmentCount ∧ stop = r.stream.durationTicks) := by
  rw [segmentCount] at inside ⊢
  rw [segmentEnd?,if_pos inside]
  cases next : r.starts[i + 1]? with
  | some stop => exact ⟨stop,rfl,.inl rfl⟩
  | none => exact ⟨_,rfl,.inr ⟨Nat.le_antisymm inside (List.getElem?_eq_none_iff.mp next),rfl⟩⟩

/-- The bounds of a segment hold a tick exactly if it is the one that is looked up. -/
theorem IsCut.encloses_iff (cut : r.IsCut) (low : 0 ≤ tick) (high : tick < r.stream.durationTicks) :
    r.Encloses i tick ↔ i = r.segmentAt tick := by
  have early {i : Nat} {start : Int} (here : r.starts[i]? = some start) :
      start ≤ tick ↔ i < (r.starts.takeWhile (· ≤ tick)).length := le_iff_of_ascending cut.ascending here
  have first : 0 < (r.starts.takeWhile (· ≤ tick)).length :=
    (early (List.head?_eq_getElem? .. ▸ cut.first)).mp low
  have count := (List.takeWhile_sublist (l := r.starts) (· ≤ tick)).length_le
  rw [segmentAt]
  constructor
  · rintro ⟨start,stop,at_start,at_stop,from_start,before⟩
    have inside : i < r.segmentCount := (List.getElem?_eq_some_iff.mp at_start).1
    have begun := (early at_start).mp from_start
    obtain ⟨_,same,bound⟩ := exists_stop inside
    obtain rfl := Option.some.inj (at_stop.symm.trans same)
    rcases bound with next | ⟨last,_⟩
    · have ahead := (early next).not.mp (Int.not_le.mpr before)
      omega
    · rw [segmentCount] at last
      omega
  · intro same
    have inside : i < r.starts.length := by omega
    have here : r.starts[i]? = some r.starts[i] := List.getElem?_eq_getElem inside
    obtain ⟨stop,at_stop,bound⟩ := exists_stop inside
    refine ⟨_,stop,here,at_stop,(early here).mpr (by omega),?_⟩
    rcases bound with next | ⟨_,rfl⟩
    · exact Int.not_le.mp ((early next).not.mpr (by omega))
    · exact high

theorem IsCut.exists_start (cut : r.IsCut) (inside : i < r.segmentCount) :
    ∃ start, r.segmentStart? i = some start ∧ 0 ≤ start ∧ start < r.stream.durationTicks :=
  ⟨r.starts[i],List.getElem?_eq_getElem inside,cut.start_nonneg (List.getElem_mem inside),
    cut.start_lt (List.getElem_mem inside)⟩

/-- A segment holds the tick where it starts. -/
theorem IsCut.encloses_start {start : Int} (cut : r.IsCut) (here : r.segmentStart? i = some start) :
    r.Encloses i start := by
  obtain ⟨inside,at_start⟩ := List.getElem?_eq_some_iff.mp here
  obtain ⟨stop,at_stop,bound⟩ := exists_stop inside
  refine ⟨start,stop,here,at_stop,Int.le_refl _,?_⟩
  rcases bound with next | ⟨_,rfl⟩
  · obtain ⟨further,same⟩ := List.getElem?_eq_some_iff.mp next
    rw [← at_start,← same]
    exact List.pairwise_iff_getElem.mp cut.ascending i (i + 1) inside further (Nat.lt_succ_self i)
  · exact cut.start_lt (List.mem_of_getElem? here)

theorem IsCut.segmentAt_of_neg (cut : r.IsCut) (early : tick < 0) : r.segmentAt tick = 0 := by
  have none : ¬ 0 < (r.starts.takeWhile (· ≤ tick)).length :=
    (le_iff_of_ascending cut.ascending (List.head?_eq_getElem? .. ▸ cut.first)).not.mp (Int.not_le.mpr early)
  rw [segmentAt]
  omega

theorem IsCut.segmentAt_of_past (cut : r.IsCut) (late : r.stream.durationTicks ≤ tick) :
    r.segmentAt tick + 1 = r.segmentCount := by
  have all : r.starts.takeWhile (· ≤ tick) = r.starts := by
    rw [List.takeWhile_eq_self_iff]
    exact fun start member => decide_eq_true (Int.le_trans (Int.le_of_lt (cut.start_lt member)) late)
  have count := cut.segmentCount_pos
  rw [segmentAt,all]
  exact Nat.sub_add_cancel count

/-- The segment that is looked up for a tick of the stream is the one whose bounds hold it; before the stream it is the
    first one and after it the last one. The start of a segment leads back to the segment, and later ticks lead to the
    same segment or to later ones. So where a player comes from another rendering of the stream, the segment in which he
    goes on holds the tick where the one that he comes from starts. -/
theorem lookup_inverts_bounds (cut : r.IsCut) :
    (∀ tick, 0 ≤ tick → tick < r.stream.durationTicks → ∀ i, r.Encloses i tick ↔ i = r.segmentAt tick) ∧
    (∀ tick < 0, r.segmentAt tick = 0) ∧
    (∀ tick ≥ r.stream.durationTicks, r.segmentAt tick + 1 = r.segmentCount) ∧
    (∀ tick tick', tick ≤ tick' → r.segmentAt tick ≤ r.segmentAt tick') ∧
    (∀ i start, r.segmentStart? i = some start → r.segmentAt start = i) ∧
    ∀ other : Rendering, other.IsCut → other.stream = r.stream → ∀ i < other.segmentCount,
      ∃ start, other.segmentStart? i = some start ∧ r.Encloses (r.segmentAt start) start ∧
        ∀ (s : Playback.State) (demand : Playback.Demand), demand.rendering = r →
          Playback.Bind.position? s demand.key = some start →
          r.Encloses (Playback.Bind.firstSegment s demand) start := by
  refine ⟨fun tick low high i => cut.encloses_iff low high,fun tick early => cut.segmentAt_of_neg early,
    fun tick late => cut.segmentAt_of_past late,fun tick tick' onward => r.segmentAt_mono onward,?_,?_⟩
  · intro i start here
    have member : start ∈ r.starts := List.mem_of_getElem? here
    exact ((cut.encloses_iff (cut.start_nonneg member) (cut.start_lt member)).mp (cut.encloses_start here)).symm
  · intro other cut' same i inside
    obtain ⟨start,here,low,high⟩ := cut'.exists_start inside
    have held : r.Encloses (r.segmentAt start) start := (cut.encloses_iff low (same ▸ high)).mpr rfl
    refine ⟨start,here,held,fun s demand wanted placed => ?_⟩
    rw [Playback.Bind.firstSegment,placed,wanted]
    exact held

/-- The film cut at keyframes, and its encoding cut on a grid of three ticks. -/
theorem tick_of_copy_found_in_encoding :
    let copy : Rendering := ⟨film,.copied film,[0,4,8]⟩
    let encoding : Rendering := ⟨film,.encoded film (.preset "360p/500kbps") default,[0,3,6,9]⟩
    encoding.IsCut ∧ copy.IsCut ∧ encoding.segmentAt 4 = 1 ∧ encoding.Encloses 1 4 ∧ ¬ encoding.Encloses 2 4 ∧
      encoding.segmentAt (-5) = 0 ∧ encoding.segmentAt 10 = 3 ∧ ∃ start, copy.segmentStart? 1 = some start ∧
        encoding.Encloses (encoding.segmentAt start) start := by
  intro copy encoding
  have cut : encoding.IsCut := ⟨rfl,by decide,by decide⟩
  have cut' : copy.IsCut := ⟨rfl,by decide,by decide⟩
  obtain ⟨holds,early,late,_,_,switch⟩ := lookup_inverts_bounds cut
  obtain ⟨start,here,held,_⟩ := switch copy cut' rfl 1 (by decide)
  refine ⟨cut,cut',rfl,(holds 4 (by decide) (by decide) 1).mpr rfl,?_,early _ (by decide),?_,start,here,held⟩
  · exact (holds 4 (by decide) (by decide) 2).not.mpr (by decide)
  · exact Nat.succ.inj (late 10 (by decide))

end Playout.Rendering
