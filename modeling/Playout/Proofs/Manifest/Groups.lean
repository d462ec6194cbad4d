import Mathlib.Data.List.Induction
import Mathlib.Data.List.Nodup
import Mathlib.Data.List.Perm.Basic

/-!
Grouping a list by a key, one member after the other. The groups come in the order in which their keys first appear,
and each has the members of its key in the order of the list: the list is cut into parts, and nothing else is done to it.
-/
namespace Playout.Manifest
variable {α κ : Type} [DecidableEq κ] {key : α → κ} {as : List α} {a : α} {k : κ} {keys : List κ}

/-- Adds to the group of a key, or as a new group at the end. -/
def addByKey (key : α → κ) (a : α) : List (κ × List α) → List (κ × List α)
  | [] => [(key a,[a])]
  | (k,members) :: rest => if k = key a then (k,members ++ [a]) :: rest else (k,members) :: addByKey key a rest

def groupByKey (key : α → κ) (as : List α) : List (κ × List α) := as.foldl (fun groups a => addByKey key a groups) []

/-- The keys of some things, each where it first appears. -/
def keysOf (key : α → κ) (as : List α) : List κ := (as.map key).eraseDups

/-- What has a key. -/
def ofKey (key : α → κ) (k : κ) (as : List α) : List α := as.filter (key · = k)

theorem mem_ofKey : a ∈ ofKey key k as ↔ a ∈ as ∧ key a = k := by
  simp [ofKey]

theorem mem_keysOf : k ∈ keysOf key as ↔ ∃ a ∈ as, key a = k := by
  simp [keysOf]

theorem nodup_eraseDups (keys : List κ) : keys.eraseDups.Nodup := by
  cases keys with
  | nil => exact List.nodup_nil
  | cons k keys =>
    rw [List.eraseDups_cons,List.nodup_cons]
    exact ⟨by simp,nodup_eraseDups (keys.filter fun other => !other == k)⟩
termination_by keys.length
decreasing_by exact Nat.lt_succ_of_le (List.length_filter_le _ _)

theorem nodup_keysOf (key : α → κ) (as : List α) : (keysOf key as).Nodup := nodup_eraseDups _

/-- A key that is there already is not listed again, and one that is new comes last. -/
theorem keysOf_append (key : α → κ) (as : List α) (a : α) :
    keysOf key (as ++ [a]) = if key a ∈ keysOf key as then keysOf key as else keysOf key as ++ [key a] := by
  have same : key a ∈ keysOf key as ↔ key a ∈ as.map key := List.mem_eraseDups
  have left : [key a].removeAll (as.map key) = if key a ∈ as.map key then [] else [key a] := by
    simp only [List.removeAll,List.filter_singleton,List.contains_eq_mem]
    by_cases there : key a ∈ as.map key <;> simp only [there,decide_true,decide_false] <;> rfl
  rw [keysOf,List.map_append,List.eraseDups_append,List.map_singleton,left]
  by_cases there : key a ∈ as.map key
  · rw [if_pos there,if_pos (same.mpr there)]
    exact List.append_nil _
  · rw [if_neg there,if_neg (there ∘ same.mp)]
    rfl

theorem ofKey_append_same (key : α → κ) (as : List α) (a : α) : ofKey key (key a) (as ++ [a]) = ofKey key (key a) as ++ [a] := by
  simp [ofKey]

theorem ofKey_append_other (as : List α) (other : key a ≠ k) : ofKey key k (as ++ [a]) = ofKey key k as := by
  simp [ofKey,other]

theorem ofKey_of_absent (absent : ∀ a ∈ as, key a ≠ k) : ofKey key k as = [] :=
  List.filter_eq_nil_iff.mpr fun a member => by simpa using absent a member

/-- The groups of some keys. -/
def groupsAt (key : α → κ) (keys : List κ) (as : List α) : List (κ × List α) := keys.map fun k => (k,ofKey key k as)

theorem groupsAt_append_other (as : List α) (absent : key a ∉ keys) :
    groupsAt key keys (as ++ [a]) = groupsAt key keys as := by
  refine List.map_congr_left fun k member => ?_
  have other : key a ≠ k := fun same => absent (same ▸ member)
  rw [ofKey_append_other as other]

theorem addByKey_of_mem (nodup : keys.Nodup) (listed : key a ∈ keys) (as : List α) :
    addByKey key a (groupsAt key keys as) = groupsAt key keys (as ++ [a]) := by
  induction keys with
  | nil => cases listed
  | cons first keys ih =>
    obtain ⟨fresh,nodup⟩ := List.nodup_cons.mp nodup
    rw [groupsAt,List.map_cons,addByKey]
    by_cases same : first = key a
    · subst same
      have later := groupsAt_append_other (a := a) as fresh
      rw [if_pos rfl,groupsAt,List.map_cons,ofKey_append_same]
      exact congrArg (List.cons _) later.symm
    · have later := ih nodup ((List.mem_cons.mp listed).resolve_left (Ne.symm same))
      rw [if_neg same,groupsAt,List.map_cons,ofKey_append_other as (Ne.symm same)]
      exact congrArg (List.cons _) later

theorem addByKey_of_not_mem (absent : key a ∉ keys) (as : List α) :
    addByKey key a (groupsAt key keys as) = groupsAt key keys as ++ [(key a,[a])] := by
  induction keys with
  | nil => rfl
  | cons first keys ih =>
    have other : first ≠ key a := fun same => absent (same ▸ List.mem_cons_self)
    have later := ih fun member => absent (List.mem_cons_of_mem first member)
    rw [groupsAt,List.map_cons,addByKey,if_neg other]
    exact congrArg (List.cons _) later

/-- What is grouped is what has the same key, and nothing changes its place among that. -/
theorem groupByKey_eq (key : α → κ) (as : List α) : groupByKey key as = groupsAt key (keysOf key as) as := by
  induction as using List.reverseRecOn with
  | nil => rfl
  | append_singleton as a ih =>
    have added : groupByKey key (as ++ [a]) = addByKey key a (groupByKey key as) := by
      rw [groupByKey,List.foldl_append]
      rfl
    rw [added,ih,keysOf_append]
    by_cases listed : key a ∈ keysOf key as
    · rw [if_pos listed,addByKey_of_mem (nodup_keysOf key as) listed]
    · have absent : ∀ b ∈ as, key b ≠ key a := fun b member same => listed (mem_keysOf.mpr ⟨b,member,same⟩)
      have group : groupsAt key [key a] (as ++ [a]) = [(key a,[a])] := by
        rw [groupsAt,List.map_singleton,ofKey_append_same,ofKey_of_absent absent,List.nil_append]
      have both : groupsAt key (keysOf key as ++ [key a]) (as ++ [a]) =
          groupsAt key (keysOf key as) (as ++ [a]) ++ groupsAt key [key a] (as ++ [a]) := List.map_append
      rw [if_neg listed,addByKey_of_not_mem listed,both,groupsAt_append_other as listed,group]

/-- The groups hold everything once. -/
theorem perm_flatMap_ofKey (nodup : keys.Nodup) (all : ∀ a ∈ as, key a ∈ keys) :
    (keys.flatMap fun k => ofKey key k as).Perm as := by
  induction keys generalizing as with
  | nil =>
    have none : as = [] := List.eq_nil_iff_forall_not_mem.mpr fun a member => absurd (all a member) List.not_mem_nil
    rw [none]
    rfl
  | cons first keys ih =>
    obtain ⟨fresh,nodup⟩ := List.nodup_cons.mp nodup
    let others := as.filter fun a => !decide (key a = first)
    have named : ∀ a ∈ others, key a ∈ keys := by
      intro a member
      obtain ⟨member,other⟩ := List.mem_filter.mp member
      exact (List.mem_cons.mp (all a member)).resolve_left (by simpa using other)
    have kept : (keys.flatMap fun k => ofKey key k others) = keys.flatMap fun k => ofKey key k as := by
      refine List.flatMap_congr fun k member => ?_
      rw [ofKey,ofKey,List.filter_filter]
      refine List.filter_congr fun a _ => ?_
      by_cases same : key a = k
      · have other : k ≠ first := fun same => fresh (same ▸ member)
        simp [same,other]
      · simp [same]
    rw [List.flatMap_cons,← kept]
    exact ((ih nodup named).append_left _).trans (List.filter_append_perm _ as)

end Playout.Manifest
