import Mathlib.Data.List.Basic
import Mathlib.Data.List.TakeWhile
import Mathlib.Data.Set.Insert
import Playout.Playable
import Playout.Proofs.Text.Blank
import Playout.Proofs.Text.Split

/-!
What the query of a player declares. Only the set of declared codecs matters (`declared`): the items between commas of
all values of one key, without the blanks around them, save empty ones. So it does not matter how they are distributed
among the values, how often they are there and in which order. To declare more never takes away what can be played,
unless nothing was declared before.
-/
namespace Playout.Playable

/-- The pairs of a query. -/
abbrev Query := List (List Char × List Char)

/-- Something stands between commas, with or without blanks around it. -/
def HasItem (value item : List Char) : Prop :=
  item ≠ [] ∧ ∃ part, Text.IsPart ',' value part ∧ Text.IsTrimmed part item

/-- The codecs that a query declares. -/
def declared (query : Query) : Set String :=
  {codec | ∃ value, ("playableCodecs".toList,value) ∈ query ∧ HasItem value codec.toList}

/-- A codec string up to its first point, or all of it if it has none. -/
def IsFamily (family codec : String) : Prop :=
  '.' ∉ family.toList ∧ (codec = family ∨ ∃ rest, codec.toList = family.toList ++ '.' :: rest)

/-- Two declarations are of one effect. -/
structure Agree (p p' : Playable) : Prop where
  contains : ∀ codec, p.contains codec = p'.contains codec
  filter : ∀ rs, p.filter rs = p'.filter rs

variable {query query' : Query} {codec : String} {value item : List Char}

/-! ### What is declared -/

theorem mem_items : item ∈ items value ↔ HasItem value item := by
  simp only [items,HasItem,List.mem_filter,List.mem_map,Text.mem_splitAll_iff,Text.trim_eq_iff,decide_eq_true_eq,
    and_comm]

theorem mem_declared :
    codec ∈ declared query ↔ ∃ value, (queryKey,value) ∈ query ∧ HasItem value codec.toList := Iff.rfl

theorem mem_codecs_ofQuery : codec ∈ (ofQuery query).codecs ↔ codec ∈ declared query := by
  rw [ofQuery,ofList,List.mem_filter,decide_eq_true_eq,mem_declared]
  simp only [List.mem_map,List.mem_flatMap,List.mem_filter,beq_iff_eq,mem_items]
  constructor
  · rintro ⟨⟨item,⟨⟨key,value⟩,⟨member,same⟩,found⟩,rfl⟩,_⟩
    exact ⟨value,same ▸ member,by rwa [String.toList_ofList]⟩
  · rintro ⟨value,member,found⟩
    refine ⟨⟨codec.toList,⟨(queryKey,value),⟨member,rfl⟩,found⟩,String.ofList_toList⟩,?_⟩
    rintro rfl
    exact found.1 rfl

theorem isUnrestricted_iff : (ofQuery query).isUnrestricted = true ↔ declared query = ∅ := by
  rw [isUnrestricted,List.isEmpty_iff,List.eq_nil_iff_forall_not_mem,Set.eq_empty_iff_forall_notMem]
  exact forall_congr' fun codec => not_congr mem_codecs_ofQuery

theorem isFamily_iff {start : String} : IsFamily start codec ↔ start = family codec := by
  have splits := List.takeWhile_append_dropWhile (p := (· ≠ '.')) (l := codec.toList)
  rw [IsFamily,family]
  constructor
  · rintro ⟨absent,shape⟩
    have before : ∀ c ∈ start.toList, decide (c ≠ '.') = true :=
      fun c member => decide_eq_true fun here => absent (here ▸ member)
    rcases shape with rfl | ⟨rest,cut⟩
    · rw [List.takeWhile_eq_self_iff.mpr before,String.ofList_toList]
    · rw [cut,List.takeWhile_append_of_pos before,List.takeWhile_cons_of_neg (by simp),List.append_nil,
        String.ofList_toList]
  · rintro rfl
    rw [String.toList_ofList]
    refine ⟨fun member => ?_,?_⟩
    · simpa using List.mem_takeWhile_imp member
    · cases rest : codec.toList.dropWhile (· ≠ '.') with
      | nil =>
        rw [rest,List.append_nil] at splits
        exact .inl (by rw [splits,String.ofList_toList])
      | cons c rest' =>
        have point : c = '.' := by
          obtain ⟨_,_,_,stops⟩ := Text.dropWhile_eq_iff.mp rest
          simpa using stops c rfl
        rw [rest,point] at splits
        exact .inr ⟨rest',splits.symm⟩

theorem contains_iff : (ofQuery query).contains codec = true ↔
    declared query = ∅ ∨ codec ∈ declared query ∨ ∃ family ∈ declared query, IsFamily family codec := by
  simp only [contains,Bool.or_eq_true,isUnrestricted_iff,List.contains_iff_mem,mem_codecs_ofQuery,isFamily_iff,
    exists_eq_right,or_assoc]

/-! ### What does not matter -/

theorem agree_of_declared (same : declared query = declared query') : (ofQuery query).Agree (ofQuery query') := by
  have alike : (ofQuery query).contains = (ofQuery query').contains :=
    funext fun codec => Bool.eq_iff_iff.mpr (by rw [contains_iff,contains_iff,same])
  refine ⟨congrFun alike,fun rs => ?_⟩
  have plays : (ofQuery query).plays = (ofQuery query').plays := by
    funext r
    rw [plays,plays,alike]
  rw [filter,filter,plays]

theorem declared_congr (same : ∀ value, (queryKey,value) ∈ query ↔ (queryKey,value) ∈ query') :
    declared query = declared query' := by
  ext codec
  rw [mem_declared,mem_declared]
  exact exists_congr fun value => and_congr_left fun _ => same value

/-- The items of values that are put together with commas are those of each of them. -/
theorem hasItem_joinWith {values : List (List Char)} :
    HasItem (Text.joinWith [','] values) item ↔ ∃ value ∈ values, HasItem value item := by
  simp only [HasItem,← Text.mem_splitAll_iff]
  by_cases some : values = []
  · subst some
    simp only [List.not_mem_nil,false_and,exists_false,iff_false]
    rintro ⟨filled,part,empty,left,right,trimmed,_⟩
    obtain rfl := List.mem_singleton.mp empty
    simp_all
  · rw [Text.splitAll_joinWith ',' some]
    simp only [List.mem_flatMap]
    constructor
    · rintro ⟨filled,part,⟨value,member,found⟩,trimmed⟩
      exact ⟨value,member,filled,part,found,trimmed⟩
    · rintro ⟨value,member,filled,part,found,trimmed⟩
      exact ⟨filled,part,⟨value,member,found⟩,trimmed⟩

theorem declared_joinWith (values : List (List Char)) (rest : Query) :
    declared ((queryKey,Text.joinWith [','] values) :: rest) = declared (values.map (queryKey,·) ++ rest) := by
  ext codec
  simp only [mem_declared,List.mem_cons,List.mem_append,List.mem_map,Prod.mk.injEq,true_and,or_and_right,exists_or,
    exists_eq_left,exists_eq_right,hasItem_joinWith]

/-- What can be played of what was declared can be played when more is declared. -/
theorem contains_of_subset (some : (declared query).Nonempty) (more : declared query ⊆ declared query')
    (plays : (ofQuery query).contains codec = true) : (ofQuery query').contains codec = true := by
  rcases contains_iff.mp plays with none | listed | ⟨family,listed,cut⟩
  · exact absurd none some.ne_empty
  · exact contains_iff.mpr (.inr (.inl (more listed)))
  · exact contains_iff.mpr (.inr (.inr ⟨family,more listed,cut⟩))

/-- A codec can be played exactly if the query declares nothing, the codec or its family. So it matters neither which
    pairs there are besides those that declare codecs, nor how often and in which order these are there, nor how the
    items are distributed among values. When a query that declares something is made to declare more, no codec stops to
    be playable and no rendering is lost. The playable renderings are in the order in which all are. -/
theorem only_declared_set_matters :
    (∀ query codec, (ofQuery query).contains codec = true ↔
      declared query = ∅ ∨ codec ∈ declared query ∨ ∃ family ∈ declared query, IsFamily family codec) ∧
    (∀ query query', (∀ value, (queryKey,value) ∈ query ↔ (queryKey,value) ∈ query') →
      (ofQuery query).Agree (ofQuery query')) ∧
    (∀ (values values' : List (List Char)) rest, (∀ value, value ∈ values ↔ value ∈ values') →
      (ofQuery ((queryKey,Text.joinWith [','] values) :: rest)).Agree
        (ofQuery ((queryKey,Text.joinWith [','] values') :: rest)) ∧
      (ofQuery ((queryKey,Text.joinWith [','] values) :: rest)).Agree (ofQuery (values'.map (queryKey,·) ++ rest))) ∧
    (∀ query query', (declared query).Nonempty → declared query ⊆ declared query' →
      (∀ codec, (ofQuery query).contains codec = true → (ofQuery query').contains codec = true) ∧
      ∀ rs, ((ofQuery query).filter rs).Sublist ((ofQuery query').filter rs)) ∧
    ∀ (p : Playable) rs, (p.filter rs).Sublist rs := by
  refine ⟨fun _ _ => contains_iff,fun _ _ same => agree_of_declared (declared_congr same),?_,?_,
    fun p rs => List.filter_sublist⟩
  · intro values values' rest same
    have apart : declared (values.map (queryKey,·) ++ rest) = declared (values'.map (queryKey,·) ++ rest) := by
      refine declared_congr fun value => ?_
      simp only [List.mem_append,List.mem_map,same]
    refine ⟨agree_of_declared ?_,agree_of_declared ?_⟩
    · rw [declared_joinWith,declared_joinWith,apart]
    · rw [declared_joinWith,apart]
  · intro query query' some more
    refine ⟨fun codec => contains_of_subset some more,fun rs => ?_⟩
    exact List.monotone_filter_right rs fun r plays => contains_of_subset some more plays

/-- A family between blanks and an empty item, beside a key that declares nothing; then one codec more. -/
theorem padded_family_stays_playable :
    let query : Query := [(queryKey," avc1 ,, mp4a.40.2".toList),("other".toList,"ac-3".toList)]
    let longer : Query := (queryKey,"hvc1".toList) :: query
    (declared query).Nonempty ∧ declared query ⊆ declared longer ∧
      (ofQuery query).contains "avc1.640028" = true ∧ (ofQuery longer).contains "avc1.640028" = true ∧
      (ofQuery longer).contains "ac-3" = false ∧
      (ofQuery [(queryKey,"hvc1,avc1,hvc1".toList)]).Agree
        (ofQuery [(queryKey,"avc1".toList),(queryKey,"hvc1".toList)]) := by
  intro query longer
  obtain ⟨_,_,apart,grow,_⟩ := only_declared_set_matters
  have some : (declared query).Nonempty := ⟨"avc1",mem_codecs_ofQuery.mp (by decide)⟩
  have more : declared query ⊆ declared longer :=
    fun codec ⟨value,member,found⟩ => ⟨value,List.mem_cons_of_mem _ member,found⟩
  have plays : (ofQuery query).contains "avc1.640028" = true := by decide
  refine ⟨some,more,plays,(grow query longer some more).1 _ plays,by decide,?_⟩
  refine (apart ["hvc1".toList,"avc1".toList,"hvc1".toList] ["avc1".toList,"hvc1".toList] [] ?_).2
  intro value
  simp only [List.mem_cons,List.not_mem_nil,or_false]
  tauto

end Playout.Playable
