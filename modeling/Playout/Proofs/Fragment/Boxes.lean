import Playout.Proofs.Fragment.Bytes

/-!
Where boxes are, and which bytes say so. A box is found by its header alone, so
a walk over boxes that leaves their payloads aside meets the same boxes in every
file that differs from this one in payloads only.
-/
namespace Playout.Fragment

variable {file file' : Array UInt8} {b : Box} {offset limit start fuel i : Nat}

/-- A byte lies in the payload of a box. -/
def Box.Holds (b : Box) (i : Nat) : Prop := b.dataOffset ≤ i ∧ i < b.next

/-- A box has a header of its own and ends before a limit that is in the file. -/
structure Box.Fits (b : Box) (limit : Nat) : Prop where
  header : 8 ≤ b.headerSize
  longer : b.headerSize ≤ b.size
  inside : b.next ≤ limit

theorem Box.Fits.dataOffset_le (fits : b.Fits limit) : b.offset + 8 ≤ b.dataOffset ∧ b.dataOffset ≤ b.next :=
  ⟨Nat.add_le_add_left fits.header _,Nat.add_le_add_left fits.longer _⟩

/-! ### One box -/

theorem extent?_header {size header : Nat} (found : extent? file offset limit = some (size,header)) :
    header = 8 ∨ header = 16 ∧ offset + 16 ≤ limit := by
  rw [extent?] at found
  split at found
  · cases found
    exact .inl rfl
  · split at found
    · cases found
    case isFalse room =>
      cases found
      exact .inr ⟨rfl,Nat.le_of_not_lt room⟩
  · cases found
    exact .inl rfl

/-- Where a length of sixty-four bits follows, the header ends after it. -/
theorem extent?_long {size header : Nat} (long : bigEndian (slice file offset 4) = 1)
    (found : extent? file offset limit = some (size,header)) : header = 16 := by
  rw [extent?,long] at found
  split at found
  · contradiction
  · split at found
    · cases found
    · cases found
      rfl
  · contradiction

theorem extent?_congr (length : slice file' offset 4 = slice file offset 4)
    (long : bigEndian (slice file offset 4) = 1 → offset + 16 ≤ limit →
      slice file' (offset + 8) 8 = slice file (offset + 8) 8) :
    extent? file' offset limit = extent? file offset limit := by
  rw [extent?,extent?,length]
  split
  · rfl
  case h_2 one =>
    split
    · rfl
    case isFalse room => rw [long one (Nat.le_of_not_lt room)]
  · rfl

theorem boxAt?_eq_some (found : boxAt? file offset limit = some b) :
    b.offset = offset ∧ b.Fits limit ∧ limit ≤ file.size ∧
      extent? file offset limit = some (b.size,b.headerSize) := by
  rw [boxAt?] at found
  split at found
  · cases found
  case isFalse room =>
    split at found
    · cases found
    case h_2 size header extent =>
      split at found
      · cases found
      case isFalse fits =>
        cases found
        refine ⟨rfl,⟨?_,?_,?_⟩,?_,extent⟩
        · rcases extent?_header extent with eight | ⟨sixteen,_⟩ <;> simp only <;> omega
        · exact Nat.le_of_not_lt fun shorter => fits (.inl shorter)
        · exact Nat.le_of_not_lt fun past => fits (.inr past)
        · omega

/-- The box at an offset depends on its header alone, or on everything up to the limit where there is none. -/
theorem boxAt?_congr (size : file'.size = file.size)
    (same : ∀ i, offset ≤ i → i < limit → (∀ b ∈ boxAt? file offset limit, i < b.dataOffset) → file'[i]? = file[i]?) :
    boxAt? file' offset limit = boxAt? file offset limit := by
  by_cases short : limit < offset + 8 ∨ file.size < limit
  · rw [boxAt?,boxAt?,size,if_pos short,if_pos short]
  · have first : ∀ i, offset ≤ i → i < offset + 8 → file'[i]? = file[i]? := by
      intro i after before
      refine same i after (by omega) fun b found => ?_
      obtain ⟨at_offset,fits,_⟩ := boxAt?_eq_some found
      have header := fits.dataOffset_le.1
      omega
    have length : slice file' offset 4 = slice file offset 4 := slice_congr fun i after before => first i after (by omega)
    have type : slice file' (offset + 4) 4 = slice file (offset + 4) 4 :=
      slice_congr fun i after before => first i (by omega) (by omega)
    have extent : extent? file' offset limit = extent? file offset limit := by
      refine extent?_congr length fun long room => slice_congr fun i after before => ?_
      refine same i (by omega) (by omega) fun b found => ?_
      obtain ⟨at_offset,_,_,extent⟩ := boxAt?_eq_some found
      rw [Box.dataOffset,extent?_long long extent,at_offset]
      omega
    rw [boxAt?,boxAt?,size,extent,type]

/-! ### Walks -/

/-- The boxes of a walk fit where it goes. -/
theorem mem_walk (member : b ∈ walk file limit fuel start) : start ≤ b.offset ∧ b.Fits limit ∧ limit ≤ file.size := by
  induction fuel generalizing start with
  | zero => cases member
  | succ fuel ih =>
    rw [walk] at member
    split at member
    · cases member
    case h_2 head found =>
      obtain ⟨at_start,fits,room,_⟩ := boxAt?_eq_some found
      rcases List.mem_cons.mp member with rfl | later
      · exact ⟨Nat.le_of_eq at_start.symm,fits,room⟩
      · obtain ⟨after,rest⟩ := ih later
        have forward := fits.dataOffset_le
        exact ⟨by omega,rest⟩

/-- Each box of a walk ends before the later ones begin. -/
theorem pairwise_walk (file : Array UInt8) (limit fuel start : Nat) :
    (walk file limit fuel start).Pairwise fun b c => b.next ≤ c.offset := by
  induction fuel generalizing start with
  | zero => exact List.Pairwise.nil
  | succ fuel ih =>
    rw [walk]
    split
    · exact List.Pairwise.nil
    · exact List.pairwise_cons.mpr ⟨fun c later => (mem_walk later).1,ih _⟩

/-- Payloads aside, files that are the same have the same boxes. -/
theorem walk_congr (size : file'.size = file.size)
    (same : ∀ i, start ≤ i → i < limit → (∀ b ∈ walk file limit fuel start, ¬ b.Holds i) → file'[i]? = file[i]?) :
    walk file' limit fuel start = walk file limit fuel start := by
  induction fuel generalizing start with
  | zero => rfl
  | succ fuel ih =>
    have head : boxAt? file' start limit = boxAt? file start limit := by
      refine boxAt?_congr size fun i after before header => same i after before fun b member holds => ?_
      rw [walk] at member
      split at member
      · cases member
      case h_2 head found =>
        have inside := header head found
        obtain ⟨_,fits,_⟩ := boxAt?_eq_some found
        rcases List.mem_cons.mp member with rfl | later
        · exact Nat.not_le.mpr inside holds.1
        · obtain ⟨behind,fits',_⟩ := mem_walk later
          have forward := fits.dataOffset_le
          have forward' := fits'.dataOffset_le
          have reached := holds.1
          omega
    rw [walk,walk,head]
    cases found : boxAt? file start limit with
    | none => rfl
    | some b =>
      obtain ⟨at_start,fits,_⟩ := boxAt?_eq_some found
      have forward := fits.dataOffset_le
      refine congrArg (List.cons b) (ih fun i after before aside => same i (by omega) before ?_)
      rw [walk,found]
      exact List.forall_mem_cons.mpr ⟨fun holds => Nat.not_lt.mpr after holds.2,aside⟩

/-! ### Boxes between two offsets -/

theorem mem_boxes (member : b ∈ boxes file start limit) : start ≤ b.offset ∧ b.Fits limit ∧ limit ≤ file.size :=
  mem_walk member

theorem pairwise_boxes (file : Array UInt8) (start limit : Nat) :
    (boxes file start limit).Pairwise fun b c => b.next ≤ c.offset :=
  pairwise_walk file limit _ start

theorem boxes_congr (size : file'.size = file.size)
    (same : ∀ i, start ≤ i → i < limit → (∀ b ∈ boxes file start limit, ¬ b.Holds i) → file'[i]? = file[i]?) :
    boxes file' start limit = boxes file start limit :=
  walk_congr size same

/-- Boxes that have a byte in common are the same. -/
theorem eq_of_mem_boxes {c : Box} (here : b ∈ boxes file start limit) (there : c ∈ boxes file start limit)
    (inside : b.offset ≤ i ∧ i < b.next) (inside' : c.offset ≤ i ∧ i < c.next) : b = c := by
  have apart := pairwise_boxes file start limit
  generalize boxes file start limit = found at here there apart
  induction apart with
  | nil => cases here
  | cons before _ ih =>
    rcases List.mem_cons.mp here with rfl | later
    · rcases List.mem_cons.mp there with rfl | later'
      · rfl
      · have ends := before c later'
        omega
    · rcases List.mem_cons.mp there with rfl | later'
      · have ends := before b later
        omega
      · exact ih later later'

end Playout.Fragment
