import Mathlib.Data.List.Induction
import Playout.Proofs.Encoder.SegmentName
import Playout.Run.Available

/-!
Which segments of a run may be served. A listing is kept in the order of the
segments, so its last one is the greatest, and exactly the segments below that one
may be served while the process runs.
-/
namespace Playout.Available

/-- The segments that may be served are those that can be asked for. -/
theorem segment?_isSome (a : Available) (index : Nat) :
    (a.segment? index).isSome = true ↔ ∃ name, (index,name) ∈ a.segments := by
  rw [segment?,Option.isSome_map,List.find?_isSome]
  constructor
  · rintro ⟨⟨i,name⟩,member,same⟩
    have same : i = index := by simpa using same
    exact ⟨name,same ▸ member⟩
  · rintro ⟨name,member⟩
    exact ⟨(index,name),member,by simp⟩

/-! ### Segments in order -/

theorem mem_of_mem_insert {index : Nat} {name : String} {p : Nat × String} {l : List (Nat × String)}
    (member : p ∈ insert index name l) : p = (index,name) ∨ p ∈ l := by
  induction l with
  | nil => simpa [insert] using member
  | cons q rest ih =>
    obtain ⟨i,other⟩ := q
    simp only [insert] at member
    split at member
    · exact List.mem_cons.mp member
    · split at member
      · rcases List.mem_cons.mp member with new | old
        · exact .inl new
        · exact .inr (List.mem_cons_of_mem _ old)
      · rcases List.mem_cons.mp member with first | later
        · exact .inr (first ▸ List.mem_cons_self)
        · rcases ih later with new | old
          · exact .inl new
          · exact .inr (List.mem_cons_of_mem _ old)

/-- The numbers of the segments after one more was added. -/
theorem mem_map_insert {index i : Nat} {name : String} {l : List (Nat × String)} :
    i ∈ (insert index name l).map (·.1) ↔ i = index ∨ i ∈ l.map (·.1) := by
  induction l with
  | nil => simp [insert]
  | cons q rest ih =>
    obtain ⟨j,other⟩ := q
    simp only [insert]
    split
    · simp
    · split
      · rename_i same
        subst same
        simp
      · rw [List.map_cons,List.mem_cons,ih,List.map_cons,List.mem_cons]
        exact or_left_comm

/-- Segments stay in order when one more is added. -/
theorem sorted_insert {index : Nat} {name : String} {l : List (Nat × String)}
    (sorted : (l.map (·.1)).Pairwise (· < ·)) : ((insert index name l).map (·.1)).Pairwise (· < ·) := by
  induction l with
  | nil => simp [insert]
  | cons q rest ih =>
    obtain ⟨j,other⟩ := q
    obtain ⟨first,later⟩ := List.pairwise_cons.mp sorted
    simp only [insert]
    split
    · rename_i below
      refine List.pairwise_cons.mpr ⟨?_,sorted⟩
      intro i member
      rcases List.mem_cons.mp member with rfl | member
      · exact below
      · exact Nat.lt_trans below (first i member)
    · split
      · rename_i same
        subst same
        exact sorted
      · rename_i not_below differs
        refine List.pairwise_cons.mpr ⟨?_,ih later⟩
        intro i member
        rcases mem_map_insert.mp member with rfl | member
        · exact Nat.lt_of_le_of_ne (Nat.le_of_not_lt not_below) (Ne.symm differs)
        · exact first i member

/-! ### Listings -/

/-- Whether a name in a listing is that of a segment in the range of a job. -/
def Lists (job : Encoder.Job) (names : List String) (index : Nat) : Prop :=
  ∃ name ∈ names, job.segmentOf? name = some index

theorem segmentOf?_eq_some {job : Encoder.Job} {name : String} {index : Nat} :
    job.segmentOf? name = some index ↔
      ∃ n, Encoder.segmentNumber? (Encoder.extension job.rendering.kind).toList name.toList = some n ∧
        index = job.first + n ∧ index < job.last := by
  simp only [Encoder.Job.segmentOf?,Option.bind_eq_some_iff,Option.ite_none_right_eq_some,Option.some.injEq]
  constructor
  · rintro ⟨n,number,inside,rfl⟩
    exact ⟨n,number,rfl,inside⟩
  · rintro ⟨n,number,rfl,inside⟩
    exact ⟨n,number,inside,rfl⟩

/-- The name of a segment is listed when the segment is in the range of the job. -/
theorem segmentOf?_segmentName {job : Encoder.Job} {n index : Nat} :
    job.segmentOf? (Encoder.segmentName n job.rendering.kind) = some index ↔
      n ≤ max32 ∧ index = job.first + n ∧ index < job.last := by
  simp only [segmentOf?_eq_some,Encoder.segmentNumber?_segmentName,Option.ite_none_right_eq_some,Option.some.injEq]
  constructor
  · rintro ⟨m,⟨small,rfl⟩,same,inside⟩
    exact ⟨small,same,inside⟩
  · rintro ⟨small,same,inside⟩
    exact ⟨n,⟨small,rfl⟩,same,inside⟩

/-- One more name of a listing. -/
def step (job : Encoder.Job) (found : List (Nat × String)) (name : String) : List (Nat × String) :=
  match job.segmentOf? name with
  | some index => insert index name found
  | .none => found

theorem listed_eq_foldl (job : Encoder.Job) (names : List String) : listed job names = names.foldl (step job) [] := rfl

theorem listed_append (job : Encoder.Job) (names : List String) (name : String) :
    listed job (names ++ [name]) = step job (listed job names) name := by
  rw [listed_eq_foldl,List.foldl_append]
  rfl

/-- The segments in a listing are in order. -/
theorem sorted_listed (job : Encoder.Job) (names : List String) :
    ((listed job names).map (·.1)).Pairwise (· < ·) := by
  induction names using List.reverseRecOn with
  | nil => exact List.Pairwise.nil
  | append_singleton names name ih =>
    rw [listed_append,step]
    split
    · exact sorted_insert ih
    · exact ih

/-- The numbers in a listing are those of its names. -/
theorem mem_map_listed {job : Encoder.Job} {names : List String} {index : Nat} :
    index ∈ (listed job names).map (·.1) ↔ Lists job names index := by
  induction names using List.reverseRecOn with
  | nil => simp [listed,Lists]
  | append_singleton names name ih =>
    rw [listed_append,step]
    cases number : job.segmentOf? name with
    | none =>
      rw [ih]
      simp [Lists,or_and_right,exists_or,number]
    | some i =>
      rw [mem_map_insert,ih]
      simp only [Lists,List.mem_append,List.mem_singleton,or_and_right,exists_or,exists_eq_left,number,
        Option.some.injEq]
      exact ⟨fun h => h.symm.imp id Eq.symm,fun h => h.symm.imp Eq.symm id⟩

/-- A segment in a listing stands beside one of its names. -/
theorem mem_listed {job : Encoder.Job} {names : List String} {index : Nat} {name : String}
    (member : (index,name) ∈ listed job names) : name ∈ names ∧ job.segmentOf? name = some index := by
  induction names using List.reverseRecOn with
  | nil => cases member
  | append_singleton names last ih =>
    rw [listed_append,step] at member
    split at member
    · rename_i i number
      rcases mem_of_mem_insert member with new | old
      · cases new
        exact ⟨List.mem_append_right _ (List.mem_singleton_self _),number⟩
      · exact ⟨List.mem_append_left _ (ih old).1,(ih old).2⟩
    · exact ⟨List.mem_append_left _ (ih member).1,(ih member).2⟩

/-! ### What may be served -/

theorem segments_ofListing (job : Encoder.Job) (hasExited : Bool) (names : List String) :
    (ofListing job hasExited names).segments =
      if hasExited then listed job names
      else (listed job names).filter fun p => ((listed job names).getLast?.map (·.1)) ≠ some p.1 := by
  unfold ofListing
  dsimp only
  cases last : (listed job names).getLast? with
  | none =>
    have empty : listed job names = [] := List.getLast?_eq_none_iff.mp last
    simp [empty]
  | some p =>
    obtain ⟨highest,name⟩ := p
    simp [eq_comm]

theorem mem_listed_of_mem {job : Encoder.Job} {hasExited : Bool} {names : List String} {p : Nat × String}
    (member : p ∈ (ofListing job hasExited names).segments) : p ∈ listed job names := by
  rw [segments_ofListing] at member
  split at member
  · exact member
  · exact (List.mem_filter.mp member).1

/-- The last segment in a listing is the greatest. -/
theorem le_of_getLast? {job : Encoder.Job} {names : List String} {highest index : Nat}
    (last : (listed job names).getLast?.map (·.1) = some highest) (lists : Lists job names index) :
    index ≤ highest := by
  have sorted := sorted_listed job names
  rw [← List.getLast?_map] at last
  obtain ⟨before,split⟩ := List.getLast?_eq_some_iff.mp last
  have member := mem_map_listed.mpr lists
  rw [split] at sorted member
  rcases List.mem_append.mp member with earlier | at_end
  · exact Nat.le_of_lt ((List.pairwise_append.mp sorted).2.2 index earlier highest (List.mem_singleton_self _))
  · exact Nat.le_of_eq (List.mem_singleton.mp at_end)

theorem lists_of_getLast? {job : Encoder.Job} {names : List String} {highest : Nat}
    (last : (listed job names).getLast?.map (·.1) = some highest) : Lists job names highest := by
  rw [← List.getLast?_map] at last
  exact mem_map_listed.mp (List.mem_of_getLast? last)

/-- Of a listing, the segments in the range of the run may be served, all of them when the process had
    ended and all but the greatest while it runs. -/
theorem mem_ofListing {job : Encoder.Job} {hasExited : Bool} {names : List String} {index : Nat} :
    index ∈ (ofListing job hasExited names).segments.map (·.1) ↔
      Lists job names index ∧ (hasExited = true ∨ ∃ greater, Lists job names greater ∧ index < greater) := by
  rw [segments_ofListing]
  cases hasExited with
  | true => simp [mem_map_listed]
  | false =>
    simp only [Bool.false_eq_true,if_false,false_or]
    constructor
    · intro member
      obtain ⟨p,found,rfl⟩ := List.mem_map.mp member
      obtain ⟨found,differs⟩ := List.mem_filter.mp found
      have lists : Lists job names p.1 := mem_map_listed.mp (List.mem_map_of_mem found)
      refine ⟨lists,?_⟩
      cases last : (listed job names).getLast?.map (·.1) with
      | none =>
        have empty : listed job names = [] := List.getLast?_eq_none_iff.mp (Option.map_eq_none_iff.mp last)
        rw [empty] at found
        cases found
      | some highest =>
        have below := le_of_getLast? last lists
        have apart : p.1 ≠ highest := by
          rintro rfl
          simp [last] at differs
        exact ⟨highest,lists_of_getLast? last,Nat.lt_of_le_of_ne below apart⟩
    · rintro ⟨lists,greater,lists',below⟩
      obtain ⟨p,found,rfl⟩ := List.mem_map.mp (mem_map_listed.mpr lists)
      refine List.mem_map_of_mem (List.mem_filter.mpr ⟨found,?_⟩)
      have apart : (listed job names).getLast?.map (·.1) ≠ some p.1 := by
        intro last
        exact Nat.lt_irrefl _ (Nat.lt_of_lt_of_le below (le_of_getLast? last lists'))
      exact decide_eq_true apart

end Playout.Available
