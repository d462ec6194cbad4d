import Mathlib.Data.List.Basic
import Playout.Proofs.Fragment.Boxes

/-!
Renumbering changes sequence numbers and nothing else. The fields are found
before anything is written; each lies in the payload of a fragment's header box,
so writing them moves no box, and a second renumbering finds the same fields.
-/
namespace Playout.Fragment

variable {file : Array UInt8} {field : Nat} {m h : Box}

/-- A field for a sequence number: four bytes in the payload of a header box of a fragment. -/
structure IsField (file : Array UInt8) (field : Nat) (m h : Box) : Prop where
  fragment : m ∈ boxes file 0 file.size ∧ m.type = moof
  header : h ∈ boxes file m.dataOffset m.next ∧ h.type = mfhd
  inside : h.dataOffset ≤ field ∧ field + 4 ≤ h.next

theorem header?_eq_some (found : header? file m = some h) : h ∈ boxes file m.dataOffset m.next ∧ h.type = mfhd := by
  have type : (h.type == mfhd) = true := List.find?_some (p := fun b : Box => b.type == mfhd) found
  exact ⟨List.mem_of_find?_eq_some found,beq_iff_eq.mp type⟩

theorem isField_of_mem (member : field ∈ sequenceFields file) : ∃ m h, IsField file field m h := by
  obtain ⟨h,kept,rfl⟩ := List.mem_map.mp member
  obtain ⟨listed,long⟩ := List.mem_filter.mp kept
  obtain ⟨m,there,found⟩ := List.mem_filterMap.mp listed
  obtain ⟨box,type⟩ := List.mem_filter.mp there
  have room : h.headerSize + 8 ≤ h.size := decide_eq_true_iff.mp long
  refine ⟨m,h,⟨box,beq_iff_eq.mp type⟩,header?_eq_some found,Nat.le_add_right _ _,?_⟩
  rw [Box.dataOffset,Box.next]
  omega

namespace IsField

variable (is : IsField file field m h)
include is

/-- The field in its fragment. -/
theorem within : m.dataOffset ≤ field ∧ field + 4 ≤ m.next := by
  obtain ⟨after,fits,_⟩ := mem_boxes is.header.1
  have forward := fits.dataOffset_le
  have inside := fits.inside
  have field := is.inside
  omega

theorem le_size : field + 4 ≤ file.size := by
  have inside := (mem_boxes is.fragment.1).2.1.inside
  have within := is.within
  omega

end IsField

theorem pairwise_headers (file : Array UInt8) :
    (((boxes file 0 file.size).filter fun b => b.type == moof).filterMap (header? file)).Pairwise
      fun h h' => h.next ≤ h'.dataOffset := by
  have fragments := (pairwise_boxes file 0 file.size).filter fun b => b.type == moof
  refine fragments.filterMap _ fun m m' before h found h' found' => ?_
  have box := mem_boxes (header?_eq_some found).1
  have box' := mem_boxes (header?_eq_some found').1
  have forward' := box'.2.1.dataOffset_le
  have inside := box.2.1.inside
  have data : m'.offset ≤ m'.dataOffset := Nat.le_add_right _ _
  omega

/-- The fields do not overlap. -/
theorem pairwise_sequenceFields (file : Array UInt8) : (sequenceFields file).Pairwise fun a b => a + 4 ≤ b := by
  rw [sequenceFields,List.pairwise_map]
  refine ((pairwise_headers file).filter _).imp_of_mem fun kept _ before => ?_
  have room := decide_eq_true_iff.mp (List.mem_filter.mp kept).2
  rw [Box.next] at before
  rw [Box.dataOffset]
  omega

/-! ### What is written -/

theorem sameOutside_renumber (first : Nat) (file : Array UInt8) :
    SameOutside (sequenceFields file) file (renumber first file).1 :=
  sameOutside_writeNumbers first _ file

theorem size_renumber (first : Nat) (file : Array UInt8) : (renumber first file).1.size = file.size :=
  (sameOutside_renumber first file).1

/-- No box at the top is moved: the fields are in payloads. -/
theorem boxes_renumber (first : Nat) (file : Array UInt8) :
    boxes (renumber first file).1 0 file.size = boxes file 0 file.size := by
  obtain ⟨size,same⟩ := sameOutside_renumber first file
  refine boxes_congr size fun i _ _ aside => same i fun field member => ?_
  obtain ⟨m,h,is⟩ := isField_of_mem member
  have within := is.within
  refine Decidable.byContradiction fun inside => ?_
  exact aside m is.fragment.1 ⟨by omega,by omega⟩

/-- No box in a box at the top is moved: the fields there are in the payload of one of the boxes. -/
theorem inner_renumber (first : Nat) (top : m ∈ boxes file 0 file.size) :
    boxes (renumber first file).1 m.dataOffset m.next = boxes file m.dataOffset m.next := by
  obtain ⟨size,same⟩ := sameOutside_renumber first file
  refine boxes_congr size fun i after before aside => same i fun field member => ?_
  obtain ⟨m',h,is⟩ := isField_of_mem member
  refine Decidable.byContradiction fun inside => ?_
  have within := is.within
  have data : m.offset ≤ m.dataOffset ∧ m'.offset ≤ m'.dataOffset := ⟨Nat.le_add_right _ _,Nat.le_add_right _ _⟩
  obtain rfl : m = m' := eq_of_mem_boxes (i := i) top is.fragment.1 (by omega) (by omega)
  exact aside h is.header.1 ⟨by have := is.inside; omega,by have := is.inside; omega⟩

/-- The same fields are found again. -/
theorem sequenceFields_renumber (first : Nat) (file : Array UInt8) :
    sequenceFields (renumber first file).1 = sequenceFields file := by
  rw [sequenceFields,sequenceFields,size_renumber,boxes_renumber]
  have headers : ((boxes file 0 file.size).filter fun b => b.type == moof).filterMap (header? (renumber first file).1) =
      ((boxes file 0 file.size).filter fun b => b.type == moof).filterMap (header? file) := by
    refine List.filterMap_congr fun m member => ?_
    rw [header?,header?,inner_renumber first (List.mem_filter.mp member).1]
  rw [headers]

/-- A file with its fragments numbered from `first` on, and how many numbers were written. -/
structure IsRenumbered (first : Nat) (file after : Array UInt8) (written : Nat) : Prop where
  size : after.size = file.size
  /-- No box is moved, neither at the top nor in a fragment. -/
  top : boxes after 0 after.size = boxes file 0 file.size
  inner : ∀ m ∈ boxes file 0 file.size, m.type = moof → boxes after m.dataOffset m.next = boxes file m.dataOffset m.next
  /-- There are as many numbers as fields, before and after, and they follow one another. -/
  count : written = (sequenceNumbers file).length ∧ written = (sequenceFields file).length
  numbers : sequenceNumbers after = (List.range' first written).map (· % Nat.pow 2 32)
  /-- The fields do not overlap and are in the payloads of header boxes of fragments. -/
  apart : (sequenceFields file).Pairwise fun a b => a + 4 ≤ b
  fields : ∀ field ∈ sequenceFields file, ∃ m h, IsField file field m h
  /-- Every other byte stays. -/
  kept : ∀ i, Outside (sequenceFields file) i → after[i]? = file[i]?
  /-- Nothing remains of these numbers when the file is numbered again. -/
  again : ∀ second, renumber second after = renumber second file

/-- Whatever the bytes of a file are, renumbering writes consecutive numbers, says how many, and leaves the rest as it
    is. -/
theorem renumbering_writes_numbers_only (first : Nat) (file : Array UInt8) :
    IsRenumbered first file (renumber first file).1 (renumber first file).2 where
  size := size_renumber first file
  top := by rw [size_renumber,boxes_renumber]
  inner := fun _ top _ => inner_renumber first top
  count := ⟨by rw [sequenceNumbers,List.length_map]; rfl,rfl⟩
  numbers := by
    rw [sequenceNumbers,sequenceFields_renumber]
    refine numbers_writeNumbers first file (pairwise_sequenceFields file) fun field member => ?_
    obtain ⟨m,h,is⟩ := isField_of_mem member
    exact is.le_size
  apart := pairwise_sequenceFields file
  fields := fun _ member => isField_of_mem member
  kept := (sameOutside_renumber first file).2
  again := by
    intro second
    have fields := sequenceFields_renumber first file
    have bytes := writeNumbers_congr second (sameOutside_renumber first file)
    simp only [renumber.eq_def second,fields]
    exact Prod.ext bytes rfl

/-- A fragment with the number one, behind a box that looks like its header. -/
def oneFragment : Array UInt8 :=
  #[0,0,0,16,0x6D,0x66,0x68,0x64,0,0,0,0,0,0,0,9,
    0,0,0,24,0x6D,0x6F,0x6F,0x66,0,0,0,16,0x6D,0x66,0x68,0x64,0,0,0,0,0,0,0,1]

theorem oneFragment_renumbered : sequenceFields oneFragment = [36] ∧ sequenceNumbers oneFragment = [1] ∧
    (renumber 7 oneFragment).2 = 1 ∧ sequenceNumbers (renumber 7 oneFragment).1 = [7] ∧
    ∀ i < 36, (renumber 7 oneFragment).1[i]? = oneFragment[i]? := by
  have fields : sequenceFields oneFragment = [36] := by decide +kernel
  have is := renumbering_writes_numbers_only 7 oneFragment
  have count : (renumber 7 oneFragment).2 = 1 := by rw [is.count.2,fields]; rfl
  refine ⟨fields,by decide +kernel,count,?_,fun i before => is.kept i ?_⟩
  · rw [is.numbers,count]
    rfl
  · rw [fields]
    intro field member
    obtain rfl := List.mem_singleton.mp member
    omega

end Playout.Fragment
