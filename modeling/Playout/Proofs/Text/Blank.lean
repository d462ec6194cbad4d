import Playout.Text.Blank

/-!
Trimming a text leaves what stands between the blanks at its ends.
-/
namespace Playout.Text

variable {s t : List Char}

/-- A text without the blanks at its ends. -/
def IsTrimmed (s t : List Char) : Prop :=
  ∃ left right, s = left ++ t ++ right ∧ (∀ c ∈ left, isBlank c = true) ∧ (∀ c ∈ right, isBlank c = true) ∧
    (∀ c ∈ t.head?, isBlank c = false) ∧ ∀ c ∈ t.getLast?, isBlank c = false

theorem dropWhile_eq_iff {drops : Char → Bool} : s.dropWhile drops = t ↔
    ∃ left, s = left ++ t ∧ (∀ c ∈ left, drops c = true) ∧ ∀ c ∈ t.head?, drops c = false := by
  constructor
  · rintro rfl
    refine ⟨s.takeWhile drops,List.takeWhile_append_dropWhile.symm,List.all_eq_true.mp List.all_takeWhile,?_⟩
    intro c first
    simpa [Option.mem_def.mp first] using List.head?_dropWhile_not drops s
  · rintro ⟨left,rfl,dropped,kept⟩
    rw [List.dropWhile_append_of_pos dropped]
    cases t with
    | nil => rfl
    | cons c t => rw [List.dropWhile_cons_of_neg (Bool.eq_false_iff.mp (kept c rfl))]

theorem trimRight_eq_iff : trimRight s = t ↔
    ∃ right, s = t ++ right ∧ (∀ c ∈ right, isBlank c = true) ∧ ∀ c ∈ t.getLast?, isBlank c = false := by
  rw [trimRight,List.reverse_eq_iff,dropWhile_eq_iff,List.head?_reverse]
  constructor
  · rintro ⟨left,same,blank,solid⟩
    refine ⟨left.reverse,?_,fun c member => blank c (List.mem_reverse.mp member),solid⟩
    rw [← List.reverse_reverse s,same,List.reverse_append,List.reverse_reverse]
  · rintro ⟨right,rfl,blank,solid⟩
    exact ⟨right.reverse,List.reverse_append,fun c member => blank c (List.mem_reverse.mp member),solid⟩

theorem trim_eq_iff : trim s = t ↔ IsTrimmed s t := by
  constructor
  · intro trimmed
    obtain ⟨right,rest,blank,solid⟩ := trimRight_eq_iff.mp trimmed
    obtain ⟨left,same,blank',solid'⟩ := dropWhile_eq_iff.mp rest
    refine ⟨left,right,by rw [List.append_assoc,← same],blank',blank,fun c first => solid' c ?_,solid⟩
    rw [List.head?_append,Option.mem_def.mp first]
    rfl
  · rintro ⟨left,right,rfl,blank,blank',solid,solid'⟩
    have rest : trimLeft (left ++ t ++ right) = if t = [] then [] else t ++ right := by
      rw [trimLeft,dropWhile_eq_iff]
      split
      case isTrue empty =>
        refine ⟨left ++ right,by simp [empty],fun c member => ?_,nofun⟩
        exact (List.mem_append.mp member).elim (blank c) (blank' c)
      case isFalse some =>
        obtain ⟨first,rest,rfl⟩ := List.exists_cons_of_ne_nil some
        exact ⟨left,List.append_assoc _ _ _,blank,solid⟩
    rw [trim,rest,trimRight_eq_iff]
    split
    case isTrue empty => exact ⟨[],by simp [empty],nofun,solid'⟩
    case isFalse => exact ⟨right,rfl,blank',solid'⟩

end Playout.Text
