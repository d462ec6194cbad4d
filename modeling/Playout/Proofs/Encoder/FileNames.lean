import Mathlib.Data.List.Induction
import Playout.Encoder.Launch
import Playout.Proofs.Encoder.SegmentName

/-!
The encoder is told a pattern for the names of its segments, and the directory that it writes to is read by the form of
the names. A name is taken for a segment exactly if it has that form (`segmentNumber?_eq_some`); the form ends with the
extension behind the first point, so that neither a part of a name nor a name with more behind it has it, too.
-/
namespace Playout

namespace Text

/-! ### Numerals without leading zeros -/

/-- A numeral begins with a zero only if it is nothing else. -/
def IsUnpadded (cs : List Char) : Prop := ∀ rest, cs = '0' :: rest → rest = []

theorem digitChar_of_isDigit {c : Char} (digit : c.isDigit = true) :
    c.toNat - '0'.toNat < 10 ∧ Nat.digitChar (c.toNat - '0'.toNat) = c := by
  have range : '0'.toNat ≤ c.toNat ∧ c.toNat ≤ '9'.toNat := by
    simp only [Char.isDigit,ge_iff_le,Bool.and_eq_true,decide_eq_true_eq,UInt32.le_iff_toNat_le] at digit
    exact digit
  have bounds : '0'.toNat = 48 ∧ '9'.toNat = 57 := ⟨rfl,rfl⟩
  have small : c.toNat - '0'.toNat < 10 := by omega
  refine ⟨small,Char.toNat_inj.mp ?_⟩
  rw [Nat.toNat_digitChar_of_lt_ten small]
  omega

/-- Such a numeral is what is written for the number that it denotes. -/
theorem toDigits_ofDigitChars {cs : List Char} (some : cs ≠ []) (digits : ∀ c ∈ cs, c.isDigit = true)
    (unpadded : IsUnpadded cs) : Nat.toDigits 10 (Nat.ofDigitChars 10 cs 0) = cs := by
  induction cs using List.reverseRecOn with
  | nil => exact absurd rfl some
  | append_singleton before last ih =>
    obtain ⟨small,char⟩ := digitChar_of_isDigit (digits last (by simp))
    have value : Nat.ofDigitChars 10 (before ++ [last]) 0 =
        10 * Nat.ofDigitChars 10 before 0 + (last.toNat - '0'.toNat) := by
      simp only [Nat.ofDigitChars_append,Nat.ofDigitChars_cons,Nat.ofDigitChars_nil]
    by_cases single : before = []
    · subst single
      rw [value,Nat.ofDigitChars_nil,Nat.mul_zero,Nat.zero_add,Nat.toDigits_of_lt_base small,char,List.nil_append]
    · have written := ih single (fun c member => digits c (List.mem_append_left _ member)) (by
        intro rest zero
        rw [zero] at unpadded
        exact absurd (unpadded (rest ++ [last]) rfl) (by simp))
      have positive : 0 < Nat.ofDigitChars 10 before 0 := by
        rw [Nat.pos_iff_ne_zero]
        intro zero
        rw [zero] at written
        rw [← written] at unpadded
        exact absurd (unpadded [last] rfl) (by simp)
      have ten : Nat.ofDigitChars 10 (before ++ [last]) 0 / 10 = Nat.ofDigitChars 10 before 0 := by omega
      have one : Nat.ofDigitChars 10 (before ++ [last]) 0 % 10 = last.toNat - '0'.toNat := by omega
      rw [Nat.toDigits_of_base_le (by decide) (by omega),ten,one,written,char]

end Text

namespace Encoder

variable {ext ext' name more digits digits' : List Char} {n n' : Nat}

/-! ### The form of a name -/

/-- A name is that of a numbered file: the fixed beginning, digits that denote the number, a point and the extension. -/
structure IsNumbered (ext name digits : List Char) (n : Nat) : Prop where
  form : name = "stream0_".toList ++ (digits ++ '.' :: ext)
  some : digits ≠ []
  decimal : ∀ c ∈ digits, c.isDigit = true
  value : Nat.ofDigitChars 10 digits 0 = n
  small : n ≤ max32

/-- The number in a name is found exactly if the name has the form. -/
theorem segmentNumber?_eq_some : segmentNumber? ext name = some n ↔ ∃ digits, IsNumbered ext name digits n := by
  simp only [segmentNumber?,Option.bind_eq_bind,Option.bind_eq_some_iff,Option.filter_eq_some_iff,
    Text.dropStart?_eq_some,Text.dropEnd?_eq_some,Text.digits?_eq_some,decide_eq_true_eq]
  constructor
  · rintro ⟨_,rfl,_,rfl,digits,rfl,⟨some,decimal,value⟩,small⟩
    exact ⟨digits,by rw [List.append_assoc]; rfl,some,decimal,value,small⟩
  · rintro ⟨digits,rfl,some,decimal,value,small⟩
    exact ⟨_,rfl,digits ++ ['.'],by rw [List.append_assoc]; rfl,digits,rfl,⟨some,decimal,value⟩,small⟩

namespace IsNumbered

theorem point_not_mem (is : IsNumbered ext name digits n) : '.' ∉ digits := by
  intro member
  exact absurd (is.decimal '.' member) (by decide)

/-- Where a name of the form goes on to another one, the digits are the same, and the extension goes on. -/
theorem ext_append (is : IsNumbered ext name digits n) (longer : IsNumbered ext' (name ++ more) digits' n') :
    ext ++ more = ext' := by
  have same : digits ++ '.' :: (ext ++ more) = digits' ++ '.' :: ext' := by
    have forms := longer.form
    rw [is.form,List.append_assoc,List.append_assoc,List.cons_append] at forms
    exact List.append_cancel_left forms
  have split := congrArg (Text.splitFirst? '.') same
  rw [Text.splitFirst?_append is.point_not_mem,Text.splitFirst?_append longer.point_not_mem] at split
  exact (Prod.mk.inj (Option.some.inj split)).2

/-- Names of one number are written with digits that denote it, so they differ in leading zeros only. -/
theorem eq_of_isUnpadded {name' : List Char} (is : IsNumbered ext name digits n) (is' : IsNumbered ext name' digits' n)
    (unpadded : Text.IsUnpadded digits) (unpadded' : Text.IsUnpadded digits') : name = name' := by
  have same : digits = digits' := by
    rw [← Text.toDigits_ofDigitChars is.some is.decimal unpadded,is.value,
      ← Text.toDigits_ofDigitChars is'.some is'.decimal unpadded',is'.value]
  rw [is.form,is'.form,same]

end IsNumbered

/-- Of a name and the same name with more behind it at most one is taken for a segment. -/
theorem segmentNumber?_append (some : more ≠ []) :
    segmentNumber? ext name = none ∨ segmentNumber? ext (name ++ more) = none := by
  by_contra both
  simp only [not_or,Option.eq_none_iff_forall_ne_some,not_forall,not_not] at both
  obtain ⟨⟨n,short⟩,n',long⟩ := both
  obtain ⟨digits,is⟩ := segmentNumber?_eq_some.mp short
  obtain ⟨digits',longer⟩ := segmentNumber?_eq_some.mp long
  exact some (List.append_right_eq_self.mp (is.ext_append longer))

/-- A name is taken for a segment with one extension at most. -/
theorem segmentNumber?_ext (other : ext ≠ ext') : segmentNumber? ext name = none ∨ segmentNumber? ext' name = none := by
  by_contra both
  simp only [not_or,Option.eq_none_iff_forall_ne_some,not_forall,not_not] at both
  obtain ⟨⟨n,one⟩,n',two⟩ := both
  obtain ⟨digits,is⟩ := segmentNumber?_eq_some.mp one
  obtain ⟨digits',is'⟩ := segmentNumber?_eq_some.mp two
  rw [← List.append_nil name] at is'
  exact other ((List.append_nil ext).symm.trans (is.ext_append is'))

/-- What begins otherwise is not taken for a segment. -/
theorem segmentNumber?_of_other_start (other : ¬ "stream0_".toList <+: name) : segmentNumber? ext name = none := by
  rw [Option.eq_none_iff_forall_ne_some]
  intro n found
  obtain ⟨digits,is⟩ := segmentNumber?_eq_some.mp found
  exact other ⟨_,is.form.symm⟩

/-! ### The pattern -/

/-- The number in the place of `%d` makes the name of a segment of the pattern. -/
theorem replaceWord_segmentPattern (n : Nat) (kind : StreamKind) :
    Text.replaceWord "%d".toList (Text.decimal n) (segmentPattern kind).toList = (segmentName n kind).toList := by
  -- The pattern has its extension in itself; that it is the one of the names is seen kind by kind.
  have pattern : (segmentPattern kind).toList =
      nameStart.toList ++ '%' :: (['d'] ++ '.' :: (extension kind).toList) := by
    cases kind <;> decide +kernel
  have name : (segmentName n kind).toList = nameStart.toList ++ (Text.decimal n ++ '.' :: (extension kind).toList) := by
    simp only [segmentName,String.toList_append,Nat.toString_eq_repr,Nat.toList_repr,List.append_assoc]
    rfl
  have percent : '%' ∉ '.' :: (extension kind).toList := by
    cases kind <;> decide
  change Text.replaceWord ['%','d'] _ _ = _
  rw [pattern,name,Text.replaceWord_behind (by decide),Text.replaceWord_append,Text.replaceWord_of_not_mem percent]

/-- The last argument of a job is the pattern. -/
theorem Job.getLast?_arguments (j : Job) : j.arguments.getLast? = some (segmentPattern j.rendering.kind) := by
  have output : j.outputArguments.getLast? = some (segmentPattern j.rendering.kind) := by
    rw [outputArguments]
    split <;> simp
  rw [arguments,List.getLast?_append,output,Option.some_or]

/-- What an encoder writes and what is read of its directory agree. The name of every segment is read back as its number,
    and it is the last argument of the encoder with the number in the place of `%d`. A name is read as a number exactly
    if it consists of the fixed beginning, digits that denote the number, a point and the extension. So the container
    header and the log are not taken for segments, nor are parts of names, names with more behind them, and names with
    another extension, and a number is read from one name without leading zeros only. -/
theorem file_names_read_as_written :
    (∀ kind, ∀ n ≤ max32, segmentNumber? (extension kind).toList (segmentName n kind).toList = some n) ∧
    (∀ (j : Job) (n : Nat), ∃ pattern, j.arguments.getLast? = some pattern ∧
      Text.replaceWord "%d".toList (Text.decimal n) pattern.toList = (segmentName n j.rendering.kind).toList) ∧
    (∀ ext name n, segmentNumber? ext name = some n ↔ ∃ digits, IsNumbered ext name digits n) ∧
    (∀ ext, segmentNumber? ext initName.toList = none ∧ segmentNumber? ext logName.toList = none) ∧
    (∀ ext name more, more ≠ [] → segmentNumber? ext name = none ∨ segmentNumber? ext (name ++ more) = none) ∧
    (∀ ext ext' name, ext ≠ ext' → segmentNumber? ext name = none ∨ segmentNumber? ext' name = none) ∧
    (∀ ext name name' digits digits' n, IsNumbered ext name digits n → IsNumbered ext name' digits' n →
      Text.IsUnpadded digits → Text.IsUnpadded digits' → name = name') := by
  refine ⟨fun kind n small => ?_,fun j n => ⟨_,j.getLast?_arguments,replaceWord_segmentPattern n j.rendering.kind⟩,
    fun _ _ _ => segmentNumber?_eq_some,fun ext => ?_,fun _ _ _ => segmentNumber?_append,
    fun _ _ _ => segmentNumber?_ext,fun _ _ _ _ _ _ is is' => is.eq_of_isUnpadded is'⟩
  · rw [segmentNumber?_segmentName,if_pos small]
  · exact ⟨segmentNumber?_of_other_start (by decide),segmentNumber?_of_other_start (by decide)⟩

/-- The name of segment seventeen, and the same number with a leading zero. -/
theorem seventeen_read_as_written :
    segmentNumber? "m4s".toList (segmentName 17 .video).toList = some 17 ∧
    segmentNumber? "m4s".toList "stream0_017.m4s".toList = some 17 ∧ ¬ Text.IsUnpadded ['0','1','7'] ∧
    segmentNumber? "m4s".toList ("stream0_017.m4s".toList ++ ".tmp".toList) = none ∧
    segmentNumber? "vtt".toList "stream0_017.m4s".toList = none := by
  obtain ⟨named,_,formed,_,cut,other,_⟩ := file_names_read_as_written
  have digits : ['0','1','7'].all Char.isDigit = true := by decide
  have padded : IsNumbered "m4s".toList "stream0_017.m4s".toList ['0','1','7'] 17 :=
    ⟨by decide,by decide,List.all_eq_true.mp digits,by decide,by decide⟩
  have read : segmentNumber? "m4s".toList "stream0_017.m4s".toList = some 17 := (formed _ _ _).mpr ⟨_,padded⟩
  refine ⟨named .video 17 (by decide),read,fun unpadded => absurd (unpadded ['1','7'] (by decide)) (by decide),?_,?_⟩
  · exact (cut _ _ _ (by decide)).resolve_left (by rw [read]; nofun)
  · exact (other "m4s".toList _ _ (by decide)).resolve_left (by rw [read]; nofun)

end Encoder
end Playout
