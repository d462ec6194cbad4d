import Mathlib.Data.List.Perm.Basic
import Playout.Json.Record
import Playout.Proofs.Json.Number

/-!
A record is read from an object with its members in any order and others among them, and from an array of its
values in the order of the fields (`fields?_of_states`).
-/
namespace Playout.Json

/-- The forms of a record of some named values. -/
inductive States (pairs : List (String × Json)) : Json → Prop
  | object {members others : List (Option (List Char) × Json)}
      (order : members.Perm (pairs.map (fun p => (some p.1.toList,p.2)) ++ others))
      (unknown : ∀ m ∈ others, ∃ key, m.1 = some key ∧ ∀ p ∈ pairs, key ≠ p.1.toList) : States pairs (.object members)
  | array : States pairs (.array (pairs.map (·.2)))

theorem states_record (pairs : List (String × Json)) : States pairs (.record pairs) := by
  have order : (pairs.map fun p => (some p.1.toList,p.2)).Perm (pairs.map (fun p => (some p.1.toList,p.2)) ++ []) := by
    rw [List.append_nil]
  exact .object order nofun

variable {pairs : List (String × Json)} {members others : List (Option (List Char) × Json)}

/-- Of members with different names, each is the only one of its name. -/
theorem filter_pairs (distinct : (pairs.map (·.1)).Nodup) {p : String × Json} (member : p ∈ pairs) :
    (pairs.map fun p => (some p.1.toList,p.2)).filter (fun m => m.1 == some p.1.toList) = [(some p.1.toList,p.2)] := by
  induction pairs with
  | nil => cases member
  | cons first pairs ih =>
    rw [List.map_cons,List.nodup_cons] at distinct
    obtain ⟨new,distinct⟩ := distinct
    rcases List.mem_cons.mp member with rfl | later
    · have none : (pairs.map fun p => (some p.1.toList,p.2)).filter (fun m => m.1 == some p.1.toList) = [] := by
        rw [List.filter_eq_nil_iff]
        rintro _ other
        obtain ⟨q,listed,rfl⟩ := List.mem_map.mp other
        have different : q.1 ≠ p.1 := fun same => new (same ▸ List.mem_map_of_mem listed)
        simpa [String.toList_inj] using different
      rw [List.map_cons,List.filter_cons_of_pos (by simp),none]
    · have different : first.1 ≠ p.1 := fun same => new (same ▸ List.mem_map_of_mem later)
      rw [List.map_cons,List.filter_cons_of_neg (by simpa [String.toList_inj] using different)]
      exact ih distinct later

theorem memberOf?_of_perm (distinct : (pairs.map (·.1)).Nodup)
    (order : members.Perm (pairs.map (fun p => (some p.1.toList,p.2)) ++ others))
    (unknown : ∀ m ∈ others, ∃ key, m.1 = some key ∧ ∀ p ∈ pairs, key ≠ p.1.toList) {p : String × Json}
    (member : p ∈ pairs) {field : Field} (named : field.name = p.1) : memberOf? members field = some (some p.2) := by
  have absent : others.filter (fun m => m.1 == some p.1.toList) = [] := by
    rw [List.filter_eq_nil_iff]
    intro m other
    obtain ⟨key,known,different⟩ := unknown m other
    simp [known,different p member]
  have found : members.filter (fun m => m.1 == some p.1.toList) = [(some p.1.toList,p.2)] := by
    have same := order.filter (fun m => m.1 == some p.1.toList)
    rw [List.filter_append,filter_pairs distinct member,absent,List.append_nil] at same
    exact List.perm_singleton.mp same
  rw [memberOf?,named,found]

theorem mapM_of_named {fields : List Field} {read : Field → Option (Option Json)}
    (names : fields.map (·.name) = pairs.map (·.1))
    (found : ∀ p ∈ pairs, ∀ field : Field, field.name = p.1 → read field = some (some p.2)) :
    fields.mapM read = some (pairs.map fun p => some p.2) := by
  induction fields generalizing pairs with
  | nil =>
    cases pairs with
    | nil => rfl
    | cons p pairs => cases names
  | cons field fields ih =>
    cases pairs with
    | nil => cases names
    | cons p pairs =>
      obtain ⟨name,names⟩ := List.cons.inj names
      obtain ⟨first,others⟩ := List.forall_mem_cons.mp found
      rw [List.mapM_cons,first field name,ih names others]
      rfl

theorem itemsOf?_of_named {fields : List Field} (names : fields.map (·.name) = pairs.map (·.1)) :
    itemsOf? fields (pairs.map (·.2)) = some (pairs.map fun p => some p.2) := by
  induction fields generalizing pairs with
  | nil =>
    cases pairs with
    | nil => rfl
    | cons p pairs => cases names
  | cons field fields ih =>
    cases pairs with
    | nil => cases names
    | cons p pairs =>
      rw [List.map_cons,itemsOf?,ih (List.cons.inj names).2]
      rfl

theorem fields?_of_states (fields : List Field) (names : fields.map (·.name) = pairs.map (·.1))
    (distinct : (pairs.map (·.1)).Nodup) {j : Json} (states : States pairs j) :
    j.fields? fields = some (pairs.map fun p => some p.2) := by
  cases states with
  | @object members others order unknown =>
    have known : (members.all fun m => m.1.isSome) = true := by
      rw [List.all_eq_true]
      intro m member
      rcases List.mem_append.mp (order.mem_iff.mp member) with listed | other
      · obtain ⟨p,_,rfl⟩ := List.mem_map.mp listed
        rfl
      · obtain ⟨key,named,_⟩ := unknown m other
        rw [named]
        rfl
    rw [fields?,if_pos known]
    exact mapM_of_named names fun p member field named => memberOf?_of_perm distinct order unknown member named
  | array => exact itemsOf?_of_named names

/-- A record of values that can be written can be written. -/
theorem proper_record (proper : ∀ p ∈ pairs, p.2.Proper) : (Json.record pairs).Proper := by
  refine .object ?_ ?_
  all_goals
    intro m member
    obtain ⟨p,listed,rfl⟩ := List.mem_map.mp member
  · exact Option.some_ne_none _
  · exact proper p listed

theorem text?_text (s : String) : (Json.text s).text? = some s.toList := rfl

end Playout.Json
