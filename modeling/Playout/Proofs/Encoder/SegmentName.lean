import Playout.Encoder.SegmentName
import Playout.Proofs.Text.Numeral
import Playout.Proofs.Text.Split

/-!
The name of a segment file is read back as the number it was made of.
-/
namespace Playout.Encoder

/-- The number in the name of a segment is the number of the segment, if it has 32 bits. -/
theorem segmentNumber?_segmentName (n : Nat) (kind : StreamKind) :
    segmentNumber? (extension kind).toList (segmentName n kind).toList = if n ≤ max32 then some n else none := by
  have name : (segmentName n kind).toList =
      nameStart.toList ++ ((Nat.toDigits 10 n ++ ['.']) ++ (extension kind).toList) := by
    simp only [segmentName,String.toList_append,Nat.toString_eq_repr,Nat.toList_repr,List.append_assoc]
    rfl
  simp only [segmentNumber?,name,Text.dropStart?_append,Text.dropEnd?_append,Text.digits?_toDigits,
    Option.bind_eq_bind,Option.bind_some]
  by_cases small : n ≤ max32
  · simp [small]
  · simp [small,Nat.lt_of_not_le small]

/-- Different segments have different names. -/
theorem segmentName_injective (kind : StreamKind) : Function.Injective fun n => segmentName n kind := by
  intro n m same
  have digits : Nat.toDigits 10 n = Nat.toDigits 10 m := by
    have lists := congrArg String.toList same
    simp only [segmentName,String.toList_append,Nat.toString_eq_repr,Nat.toList_repr,List.append_assoc,
      List.append_cancel_left_eq] at lists
    exact List.append_cancel_right lists
  have value := congrArg (fun cs => Nat.ofDigitChars 10 cs 0) digits
  simpa using value

end Playout.Encoder
