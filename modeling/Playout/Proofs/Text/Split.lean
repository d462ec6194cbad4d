import Mathlib.Tactic.SplitIfs
import Playout.Text.Split

/-!
Texts that are put together are taken apart again: a fixed beginning or end, what
stands before and after the last separator, and the parts between separators. A word is replaced wherever it occurs
and leaves all else as it is.
-/
namespace Playout.Text

variable {α : Type} [DecidableEq α]

theorem dropStart?_append (start rest : List α) : dropStart? start (start ++ rest) = some rest := by
  induction start with
  | nil => rfl
  | cons x start ih =>
    rw [List.cons_append,dropStart?,if_pos rfl]
    exact ih

theorem dropStart?_eq_some {start l rest : List α} : dropStart? start l = some rest ↔ l = start ++ rest := by
  constructor
  · intro dropped
    induction start generalizing l with
    | nil => exact Option.some.inj dropped
    | cons x start ih =>
      cases l with
      | nil => cases dropped
      | cons y l =>
        rw [dropStart?] at dropped
        split_ifs at dropped with same
        rw [same,ih dropped,List.cons_append]
  · rintro rfl
    exact dropStart?_append start rest

theorem dropEnd?_append (rest tail : List α) : dropEnd? tail (rest ++ tail) = some rest := by
  rw [dropEnd?,List.reverse_append,dropStart?_append,Option.map_some,List.reverse_reverse]

theorem dropEnd?_eq_some {l rest tail : List α} : dropEnd? tail l = some rest ↔ l = rest ++ tail := by
  constructor
  · intro dropped
    obtain ⟨turned,start,rfl⟩ := Option.map_eq_some_iff.mp dropped
    have whole := congrArg List.reverse (dropStart?_eq_some.mp start)
    rwa [List.reverse_append,List.reverse_reverse,List.reverse_reverse] at whole
  · rintro rfl
    exact dropEnd?_append rest tail

theorem splitFirst?_of_not_mem {sep : α} {l : List α} (absent : sep ∉ l) : splitFirst? sep l = none := by
  induction l with
  | nil => rfl
  | cons x l ih =>
    rw [splitFirst?,if_neg (fun here : x = sep => absent (here ▸ List.mem_cons_self)),
      ih (fun later => absent (List.mem_cons_of_mem x later))]
    rfl

/-- A separator that does not occur before it is the first one. -/
theorem splitFirst?_append {sep : α} {before : List α} (first : sep ∉ before) (after : List α) :
    splitFirst? sep (before ++ sep :: after) = some (before,after) := by
  induction before with
  | nil => exact if_pos rfl
  | cons x before ih =>
    rw [List.cons_append,splitFirst?,if_neg (fun here : x = sep => first (here ▸ List.mem_cons_self)),
      ih (fun later => first (List.mem_cons_of_mem x later))]
    rfl

/-- What has no separator in it stays before the first one. -/
theorem splitFirst?_behind {sep : α} {before : List α} (absent : sep ∉ before) (l : List α) :
    splitFirst? sep (before ++ l) = (splitFirst? sep l).map fun parts => (before ++ parts.1,parts.2) := by
  induction before with
  | nil => simp
  | cons x before ih =>
    rw [List.cons_append,splitFirst?,if_neg (fun here : x = sep => absent (here ▸ List.mem_cons_self)),
      ih (fun later => absent (List.mem_cons_of_mem x later)),Option.map_map]
    rfl

theorem eq_append_of_splitFirst? {sep : α} {l before after : List α} (split : splitFirst? sep l = some (before,after)) :
    l = before ++ sep :: after := by
  induction l generalizing before with
  | nil => cases split
  | cons x l ih =>
    rw [splitFirst?] at split
    split_ifs at split with here
    · obtain ⟨rfl,rfl⟩ := Prod.mk.inj (Option.some.inj split)
      rw [here,List.nil_append]
    · obtain ⟨⟨first,rest⟩,parts,same⟩ := Option.map_eq_some_iff.mp split
      obtain ⟨rfl,rfl⟩ := Prod.mk.inj same
      rw [ih parts,List.cons_append]

theorem splitAll_of_not_mem {sep : α} {l : List α} (absent : sep ∉ l) : splitAll sep l = [l] := by
  induction l with
  | nil => rfl
  | cons x l ih =>
    have other : x ≠ sep := fun here => absent (here ▸ List.mem_cons_self)
    rw [splitAll,if_neg other,ih (fun later => absent (List.mem_cons_of_mem x later))]

theorem splitAll_ne_nil (sep : α) (l : List α) : splitAll sep l ≠ [] := by
  induction l with
  | nil => nofun
  | cons x l ih =>
    rw [splitAll]
    split_ifs
    · nofun
    · split <;> nofun

/-- The parts of a text with a separator in it are those before it and those after it. -/
theorem splitAll_append (sep : α) (before after : List α) :
    splitAll sep (before ++ sep :: after) = splitAll sep before ++ splitAll sep after := by
  induction before with
  | nil => exact if_pos rfl
  | cons x before ih =>
    rw [List.cons_append,splitAll,splitAll,ih]
    by_cases here : x = sep
    · rw [if_pos here,if_pos here,List.cons_append]
    · rw [if_neg here,if_neg here]
      cases parts : splitAll sep before with
      | nil => exact absurd parts (splitAll_ne_nil sep before)
      | cons part parts => rfl

/-- What has no separator in it belongs to the first part. -/
theorem splitAll_behind {sep : α} {before : List α} (absent : sep ∉ before) (l : List α) :
    splitAll sep (before ++ l) = (splitAll sep l).modifyHead (before ++ ·) := by
  induction before with
  | nil =>
    rw [List.nil_append]
    cases splitAll sep l <;> rfl
  | cons x before ih =>
    rw [List.cons_append,splitAll,if_neg (fun here : x = sep => absent (here ▸ List.mem_cons_self)),
      ih (fun later => absent (List.mem_cons_of_mem x later))]
    cases parts : splitAll sep l with
    | nil => exact absurd parts (splitAll_ne_nil sep l)
    | cons part parts => rfl

/-- More text goes on with the last part. -/
theorem splitAll_append_last (sep : α) (l more : List α) : splitAll sep (l ++ more) =
    (splitAll sep l).dropLast ++ splitAll sep ((splitAll sep l).getLast?.getD [] ++ more) := by
  induction l with
  | nil => rfl
  | cons x l ih =>
    rw [List.cons_append,splitAll,splitAll,ih]
    rcases parts : splitAll sep l with _ | ⟨part,_ | ⟨next,later⟩⟩
    · exact absurd parts (splitAll_ne_nil sep l)
    all_goals
      by_cases here : x = sep
      · simp [here]
      · simp [here,splitAll]

theorem not_mem_of_mem_splitAll {sep : α} {l part : List α} (member : part ∈ splitAll sep l) : sep ∉ part := by
  induction l generalizing part with
  | nil =>
    obtain rfl := List.mem_singleton.mp member
    nofun
  | cons x l ih =>
    rw [splitAll] at member
    split_ifs at member with here
    · rcases List.mem_cons.mp member with rfl | later
      · nofun
      · exact ih later
    · cases parts : splitAll sep l with
      | nil => exact absurd parts (splitAll_ne_nil sep l)
      | cons first parts =>
        rw [parts] at ih member
        rcases List.mem_cons.mp member with rfl | later
        · exact List.not_mem_cons_of_ne_of_not_mem (Ne.symm here) (ih (.head _))
        · exact ih (.tail _ later)

/-- What stands between two separators of a list, or between one and an end of it. -/
def IsPart (sep : α) (l part : List α) : Prop :=
  ∃ before after, l = before ++ part ++ after ∧ sep ∉ part ∧ (before = [] ∨ before.getLast? = some sep) ∧
    (after = [] ∨ after.head? = some sep)

omit [DecidableEq α] in
theorem joinWith_cons (sep part : List α) {parts : List (List α)} (some : parts ≠ []) :
    joinWith sep (part :: parts) = part ++ sep ++ joinWith sep parts := by
  cases parts with
  | nil => exact absurd rfl some
  | cons next parts => rfl

/-- The parts are the list again when separators are put between them. -/
theorem joinWith_splitAll (sep : α) (l : List α) : joinWith [sep] (splitAll sep l) = l := by
  induction l with
  | nil => rfl
  | cons x l ih =>
    rw [splitAll]
    cases parts : splitAll sep l with
    | nil => exact absurd parts (splitAll_ne_nil sep l)
    | cons part parts' =>
      rw [parts] at ih
      split
      case isTrue here =>
        rw [joinWith_cons [sep] [] (List.cons_ne_nil _ _),ih,here]
        rfl
      case isFalse => cases parts' <;> simp_all [joinWith]

omit [DecidableEq α] in
theorem joinWith_append_cons (sep : α) (parts : List (List α)) (part : List α) (parts' : List (List α)) :
    joinWith [sep] (parts ++ part :: parts') =
      parts.flatMap (· ++ [sep]) ++ part ++ parts'.flatMap (sep :: ·) := by
  induction parts with
  | nil =>
    induction parts' generalizing part with
    | nil => simp [joinWith]
    | cons next parts' ih => simp_all [joinWith]
  | cons first parts ih =>
    rw [List.cons_append,joinWith_cons [sep] first (by simp),ih]
    simp

theorem mem_splitAll_iff {sep : α} {l part : List α} : part ∈ splitAll sep l ↔ IsPart sep l part := by
  constructor
  · intro member
    obtain ⟨parts,parts',split⟩ := List.append_of_mem member
    have joined := joinWith_splitAll sep l
    rw [split,joinWith_append_cons] at joined
    refine ⟨_,_,joined.symm,not_mem_of_mem_splitAll member,?_,?_⟩
    · rcases parts.eq_nil_or_concat with rfl | ⟨parts,last,rfl⟩
      · exact .inl rfl
      · exact .inr (by simp)
    · cases parts' with
      | nil => exact .inl rfl
      | cons next parts' => exact .inr rfl
  · rintro ⟨before,after,rfl,absent,starts,ends⟩
    have first : part ∈ splitAll sep (part ++ after) := by
      cases after with
      | nil =>
        rw [List.append_nil,splitAll_of_not_mem absent]
        exact List.mem_singleton_self _
      | cons x after =>
        obtain rfl : x = sep := by simpa using ends
        rw [splitAll_append,splitAll_of_not_mem absent]
        exact List.mem_cons_self
    rcases before.eq_nil_or_concat with rfl | ⟨before,x,rfl⟩
    · exact first
    · obtain rfl : x = sep := by simpa using starts
      rw [List.concat_eq_append,List.append_assoc,List.append_assoc,List.singleton_append,splitAll_append]
      exact List.mem_append_right _ first

/-- The parts of lists that are put together with separators are those of each of them. -/
theorem splitAll_joinWith (sep : α) {parts : List (List α)} (some : parts ≠ []) :
    splitAll sep (joinWith [sep] parts) = parts.flatMap (splitAll sep) := by
  induction parts with
  | nil => exact absurd rfl some
  | cons part parts ih =>
    rw [List.flatMap_cons]
    cases parts with
    | nil => rw [joinWith,List.flatMap_nil,List.append_nil]
    | cons next parts =>
      have more : next :: parts ≠ [] := List.cons_ne_nil next parts
      rw [joinWith_cons _ _ more,List.append_assoc,List.singleton_append,splitAll_append,ih more]

/-! ### Words in the place of letters -/

variable {first : α} {rest : List α}

theorem replaceWordFrom_skip (replacement skipped xs : List α) :
    replaceWordFrom first rest replacement skipped.length (skipped ++ xs) =
      replaceWordFrom first rest replacement 0 xs := by
  induction skipped with
  | nil => rfl
  | cons x skipped ih => exact ih

theorem replaceWord_cons_of_ne {x : α} (other : x ≠ first) (replacement l : List α) :
    replaceWord (first :: rest) replacement (x :: l) = x :: replaceWord (first :: rest) replacement l :=
  if_neg fun here => other here.1

theorem replaceWord_append (replacement l : List α) :
    replaceWord (first :: rest) replacement (first :: (rest ++ l)) =
      replacement ++ replaceWord (first :: rest) replacement l := by
  have occurs : (dropStart? rest (rest ++ l)).isSome := by
    rw [dropStart?_append]
    rfl
  rw [replaceWord,replaceWordFrom,if_pos ⟨rfl,occurs⟩,replaceWordFrom_skip,replaceWord]

/-- What has not the first letter of the word in it stays before what is replaced. -/
theorem replaceWord_behind {before : List α} (absent : first ∉ before) (replacement l : List α) :
    replaceWord (first :: rest) replacement (before ++ l) = before ++ replaceWord (first :: rest) replacement l := by
  induction before with
  | nil => rfl
  | cons x before ih =>
    have other : x ≠ first := fun here => absent (here ▸ List.mem_cons_self)
    rw [List.cons_append,replaceWord_cons_of_ne other,ih fun later => absent (List.mem_cons_of_mem x later),
      List.cons_append]

/-- Without its first letter a word does not occur. -/
theorem replaceWord_of_not_mem {l : List α} (absent : first ∉ l) (replacement : List α) :
    replaceWord (first :: rest) replacement l = l := by
  have none : replaceWord (first :: rest) replacement [] = [] := rfl
  have whole : replaceWord (first :: rest) replacement (l ++ []) = l ++ replaceWord (first :: rest) replacement [] :=
    replaceWord_behind absent replacement []
  rwa [List.append_nil,none,List.append_nil] at whole

/-- A word of one letter occurs wherever the letter does. -/
theorem replaceWord_letter (letter : α) (replacement l : List α) :
    replaceWord [letter] replacement l = l.flatMap fun x => if x = letter then replacement else [x] := by
  rw [replaceWord]
  induction l with
  | nil => rfl
  | cons x l ih =>
    rw [replaceWordFrom,List.flatMap_cons,List.length_nil,ih]
    by_cases here : x = letter
    · rw [if_pos ⟨here,rfl⟩,if_pos here]
    · rw [if_neg (fun both => here both.1),if_neg here]
      rfl

end Playout.Text
