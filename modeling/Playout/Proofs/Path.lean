import Mathlib.Data.List.Basic
import Playout.Path
import Playout.Proofs.Text.Split

/-!
A relative path without `..` stays inside the directory that it is seen from: the components of what it stands for
there are those of the directory and then its own (`steps_join`).
-/
namespace Playout.Path

/-- A path that is neither absolute nor has a part `..`. -/
structure IsInside (path : List Char) : Prop where
  relative : path.head? ≠ some '/'
  downwards : ['.','.'] ∉ Text.splitAll '/' path

/-- The components that say where a path leads: all but `.`. -/
def steps (path : List Char) : List Component := (components path).filter (· ≠ .current)

/-- A component that leads into a directory or to a file in one. -/
def Component.Descends (c : Component) : Prop :=
  c = .current ∨ ∃ text, c = .name text ∧ text ≠ [] ∧ text ≠ ['.'] ∧ text ≠ ['.','.'] ∧ '/' ∉ text

theorem component?_eq_parent_iff {part : List Char} : component? part = some .parent ↔ part = ['.','.'] := by
  unfold component?
  split_ifs with silent parent
  · rcases silent with rfl | rfl <;> decide
  · simp [parent]
  · simp [parent]

theorem descends_of_component? {part : List Char} {c : Component} (read : component? part = some c)
    (down : part ≠ ['.','.']) (inside : '/' ∉ part) : c.Descends := by
  unfold component? at read
  split_ifs at read with silent
  cases read
  exact .inr ⟨part,rfl,fun empty => silent (.inl empty),fun dot => silent (.inr dot),down,inside⟩

/-- What stands before the components of the parts. -/
def start (path : List Char) : List Component :=
  if path.head? = some '/' then [.root]
  else if (Text.splitAll '/' path).head? = some ['.'] then [.current]
  else []

theorem components_eq (path : List Char) :
    components path = start path ++ (Text.splitAll '/' path).filterMap component? := by
  obtain ⟨first,parts,split⟩ := List.exists_cons_of_ne_nil (Text.splitAll_ne_nil '/' path)
  simp [components,start,split]

theorem steps_eq (path : List Char) :
    steps path = (if path.head? = some '/' then [.root] else []) ++ (Text.splitAll '/' path).filterMap component? := by
  have visible : ∀ c ∈ (Text.splitAll '/' path).filterMap component?, decide (c ≠ .current) = true := by
    intro c member
    obtain ⟨part,_,read⟩ := List.mem_filterMap.mp member
    unfold component? at read
    split_ifs at read <;> cases read <;> rfl
  rw [steps,components_eq,List.filter_append,List.filter_eq_self.mpr visible,start]
  split_ifs <;> rfl

theorem descends_of_isInside {path : List Char} (inside : IsInside path) : ∀ c ∈ components path, c.Descends := by
  intro c member
  rw [components_eq,start,if_neg inside.relative,List.mem_append] at member
  rcases member with member | member
  · split_ifs at member
    · exact .inl (List.mem_singleton.mp member)
    · cases member
  · obtain ⟨part,listed,read⟩ := List.mem_filterMap.mp member
    exact descends_of_component? read (fun up => inside.downwards (up ▸ listed)) (Text.not_mem_of_mem_splitAll listed)

theorem staysInside_iff {path : List Char} : staysInside path = true ↔ IsInside path := by
  rw [staysInside,List.all_eq_true]
  constructor
  · intro stays
    refine ⟨fun absolute => ?_,fun up => ?_⟩
    · have root : Component.root ∈ components path := by
        rw [components_eq,start,if_pos absolute]
        exact .head _
      cases stays _ root
    · have parent : Component.parent ∈ components path := by
        rw [components_eq]
        exact List.mem_append_right _ (List.mem_filterMap.mpr ⟨_,up,component?_eq_parent_iff.mpr rfl⟩)
      cases stays _ parent
  · intro inside c member
    obtain rfl | ⟨text,rfl,_⟩ := descends_of_isInside inside c member <;> rfl

/-- The way to a path inside a directory is the way to the directory and then its own. -/
theorem steps_join {path : List Char} (relative : path.head? ≠ some '/') (directory : List Char) :
    steps (join directory path) = steps directory ++ steps path := by
  rw [join,if_neg relative]
  -- A slash stands between the two, put in or the last of the directory, so the parts of both stay what they were.
  by_cases empty : directory = []
  · rw [if_pos (.inl empty),empty]
    rfl
  by_cases ends : directory.getLast? = some '/'
  · obtain ⟨before,rfl⟩ := List.getLast?_eq_some_iff.mp ends
    have begins : (before ++ ['/'] ++ path).head? = (before ++ ['/']).head? := List.head?_append_of_ne_nil _ empty
    rw [if_pos (.inr ends),steps_eq,steps_eq,steps_eq path,begins,if_neg relative,List.append_assoc before,
      List.singleton_append,Text.splitAll_append,Text.splitAll_append,List.filterMap_append,List.filterMap_append,
      List.append_assoc,List.append_assoc]
    rfl
  · have begins : (directory ++ '/' :: path).head? = directory.head? := List.head?_append_of_ne_nil _ empty
    rw [if_neg (not_or.mpr ⟨empty,ends⟩),steps_eq,steps_eq directory,steps_eq path,begins,if_neg relative,
      Text.splitAll_append,List.filterMap_append,List.append_assoc]
    rfl

end Playout.Path
