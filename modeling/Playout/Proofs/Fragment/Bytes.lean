import Playout.Fragment

/-!
Bytes of a file, written over and read back. A file with numbers written to some
fields differs from the file before at most in these fields, and what stood in
them does not matter.
-/
namespace Playout.Fragment

variable {file file' : Array UInt8} {bytes : List UInt8} {fields : List Nat} {offset count i : Nat}

/-! ### Reading -/

theorem getElem?_slice (k : Nat) : (slice file offset count)[k]? = if k < count then file[offset + k]? else none := by
  rw [slice,Array.getElem?_toList,Array.getElem?_extract]
  by_cases inside : k < count
  · rw [if_pos inside]
    split
    · rfl
    · exact (Array.getElem?_eq_none (by omega)).symm
  · rw [if_neg inside,if_neg (by omega)]

theorem slice_congr (same : ∀ i, offset ≤ i → i < offset + count → file'[i]? = file[i]?) :
    slice file' offset count = slice file offset count := by
  apply List.ext_getElem?
  intro k
  rw [getElem?_slice,getElem?_slice]
  split
  · exact same _ (Nat.le_add_right _ _) (by omega)
  · rfl

/-! ### Writing -/

theorem size_overwrite (file : Array UInt8) (offset : Nat) (bytes : List UInt8) :
    (overwrite file offset bytes).size = file.size := by
  induction bytes generalizing file offset with
  | nil => rfl
  | cons b bytes ih => rw [overwrite,ih,Array.size_setIfInBounds]

theorem getElem?_overwrite (file : Array UInt8) (offset : Nat) (bytes : List UInt8) (i : Nat) :
    (overwrite file offset bytes)[i]? =
      if offset ≤ i ∧ i < offset + bytes.length ∧ i < file.size then bytes[i - offset]? else file[i]? := by
  induction bytes generalizing file offset with
  | nil =>
    rw [List.length_nil,if_neg (by omega)]
    rfl
  | cons b bytes ih =>
    rw [overwrite,ih,Array.size_setIfInBounds,Array.getElem?_setIfInBounds,List.length_cons]
    by_cases here : offset = i
    · subst here
      rw [if_neg (by omega),if_pos rfl,Nat.sub_self]
      by_cases inside : offset < file.size
      · rw [if_pos inside,if_pos (by omega)]
        rfl
      · rw [if_neg inside,if_neg (by omega),Array.getElem?_eq_none (Nat.le_of_not_lt inside)]
    · rw [if_neg here]
      by_cases there : offset + 1 ≤ i ∧ i < offset + 1 + bytes.length ∧ i < file.size
      · rw [if_pos there,if_pos (by omega),show i - offset = i - (offset + 1) + 1 by omega]
        rfl
      · rw [if_neg there,if_neg (by omega)]

theorem getElem?_overwrite_outside (outside : i < offset ∨ offset + bytes.length ≤ i) :
    (overwrite file offset bytes)[i]? = file[i]? := by
  rw [getElem?_overwrite,if_neg (by omega)]

theorem slice_overwrite (fits : offset + bytes.length ≤ file.size) :
    slice (overwrite file offset bytes) offset bytes.length = bytes := by
  apply List.ext_getElem?
  intro k
  rw [getElem?_slice]
  split
  case isTrue inside => rw [getElem?_overwrite,if_pos (by omega),Nat.add_sub_cancel_left]
  case isFalse outside => exact (List.getElem?_eq_none (Nat.le_of_not_lt outside)).symm

theorem length_fourBytes (n : Nat) : (fourBytes n).length = 4 := rfl

theorem bigEndian_fourBytes (n : Nat) : bigEndian (fourBytes n) = n % Nat.pow 2 32 := by
  simp [bigEndian,fourBytes]
  omega

/-! ### Numbers in fields -/

/-- A byte lies in none of some fields. -/
def Outside (fields : List Nat) (i : Nat) : Prop := ∀ field ∈ fields, i < field ∨ field + 4 ≤ i

/-- Two files differ at most in some fields. -/
def SameOutside (fields : List Nat) (file file' : Array UInt8) : Prop :=
  file'.size = file.size ∧ ∀ i, Outside fields i → file'[i]? = file[i]?

theorem sameOutside_writeNumbers (first : Nat) (fields : List Nat) (file : Array UInt8) :
    SameOutside fields file (writeNumbers first fields file) := by
  induction fields generalizing first file with
  | nil => exact ⟨rfl,fun _ _ => rfl⟩
  | cons field fields ih =>
    obtain ⟨size,same⟩ := ih (first + 1) (overwrite file field (fourBytes (first % Nat.pow 2 32)))
    refine ⟨size.trans (size_overwrite _ _ _),fun i outside => ?_⟩
    rw [writeNumbers,same i fun other member => outside other (List.mem_cons_of_mem _ member)]
    exact getElem?_overwrite_outside (outside field List.mem_cons_self)

/-- What stood in the fields does not matter. -/
theorem writeNumbers_congr (first : Nat) (same : SameOutside fields file file') :
    writeNumbers first fields file' = writeNumbers first fields file := by
  induction fields generalizing first file file' with
  | nil => exact Array.ext_getElem? fun i => same.2 i fun _ member => nomatch member
  | cons field fields ih =>
    obtain ⟨size,same⟩ := same
    refine ih (first + 1) ⟨by rw [size_overwrite,size_overwrite,size],fun i outside => ?_⟩
    rw [getElem?_overwrite,getElem?_overwrite,size]
    split
    · rfl
    case isFalse kept =>
      by_cases inside : i < file.size
      · rw [length_fourBytes] at kept
        exact same i (List.forall_mem_cons.mpr ⟨by omega,outside⟩)
      · rw [Array.getElem?_eq_none (by omega),Array.getElem?_eq_none (by omega)]

/-- Numbers are read back from fields that do not overlap. -/
theorem numbers_writeNumbers (first : Nat) (file : Array UInt8) (apart : fields.Pairwise fun a b => a + 4 ≤ b)
    (fit : ∀ field ∈ fields, field + 4 ≤ file.size) :
    (fields.map fun field => bigEndian (slice (writeNumbers first fields file) field 4)) =
      (List.range' first fields.length).map (· % Nat.pow 2 32) := by
  induction fields generalizing first file with
  | nil => rfl
  | cons field fields ih =>
    obtain ⟨before,apart⟩ := List.pairwise_cons.mp apart
    obtain ⟨fits,fit⟩ := List.forall_mem_cons.mp fit
    have written := sameOutside_writeNumbers (first + 1) fields (overwrite file field (fourBytes (first % Nat.pow 2 32)))
    have here : slice (writeNumbers first (field :: fields) file) field 4 = fourBytes (first % Nat.pow 2 32) := by
      rw [writeNumbers,slice_congr fun i _ inside => written.2 i fun other member =>
        .inl (Nat.lt_of_lt_of_le inside (before other member))]
      exact slice_overwrite fits
    have later := ih (first + 1) (overwrite file field (fourBytes (first % Nat.pow 2 32))) apart
      (by rwa [size_overwrite])
    rw [List.map_cons,here,bigEndian_fourBytes,Nat.mod_mod,List.length_cons,List.range'_succ,List.map_cons]
    exact congrArg _ later

end Playout.Fragment
