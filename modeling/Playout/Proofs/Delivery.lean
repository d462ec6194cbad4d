import Mathlib.Data.List.Basic
import Mathlib.Tactic.SplitIfs
import Playout.Playable

/-!
The rendering that is delivered of a stream, and the ladder of those that are offered below it. What is picked out of
a list is told by what stands before it and what stands behind it there, so that ties are settled, too
(`preferred?_eq_some_iff`). A ladder that is selected from again stays as it is.
-/
namespace Playout

variable {α : Type} {wins : α → α → Bool} {rank : α → Nat} {l : List α} {a : α}

/-! ### Picking an element -/

/-- The element that is left when a list is gone through from its end, and an element takes the place of the one that
    was kept if it wins against that. -/
def preferred? (wins : α → α → Bool) : List α → Option α
  | [] => none
  | a :: rest =>
    match preferred? wins rest with
    | none => some a
    | some b => if wins a b then some a else some b

/-- An element that wins against all behind it, while none before wins against it. -/
def IsPreferred (wins : α → α → Bool) (l : List α) (a : α) : Prop :=
  ∃ before after, l = before ++ a :: after ∧ (∀ b ∈ before, wins b a = false) ∧ ∀ b ∈ after, wins a b = true

/-- Winning is decided by a rank. -/
structure IsRanked (wins : α → α → Bool) : Prop where
  trans : ∀ a b c, wins a b = true → wins b c = true → wins a c = true
  cotrans : ∀ a b c, wins a b = true → wins c b = false → wins a c = true

theorem preferred?_eq_none_iff : preferred? wins l = none ↔ l = [] := by
  cases l with
  | nil => simp [preferred?]
  | cons a rest =>
    rw [preferred?]
    cases preferred? wins rest with
    | none => simp
    | some b => by_cases here : wins a b = true <;> simp [here]

theorem IsPreferred.mem (preferred : IsPreferred wins l a) : a ∈ l := by
  obtain ⟨before,after,rfl,_⟩ := preferred
  exact List.mem_append_right before List.mem_cons_self

/-- Of two elements that are picked, the one that stands before the other would win and not win against it. -/
theorem IsPreferred.unique {b : α} (one : IsPreferred wins l a) (other : IsPreferred wins l b) : a = b := by
  obtain ⟨before,after,rfl,lose,win⟩ := one
  obtain ⟨before',after',same,lose',win'⟩ := other
  rcases List.append_eq_append_iff.mp same with ⟨between,rfl,rest⟩ | ⟨between,rfl,rest⟩
  · cases between with
    | nil => exact (List.cons.inj rest).1
    | cons c between =>
      obtain ⟨rfl,rfl⟩ := List.cons.inj rest
      have wins := win b (List.mem_append_right between List.mem_cons_self)
      rw [lose' a (List.mem_append_right before List.mem_cons_self)] at wins
      cases wins
  · cases between with
    | nil => exact (List.cons.inj rest).1.symm
    | cons c between =>
      obtain ⟨rfl,rfl⟩ := List.cons.inj rest
      have wins := win' a (List.mem_append_right between List.mem_cons_self)
      rw [lose b (List.mem_append_right before' List.mem_cons_self)] at wins
      cases wins

theorem isPreferred_of_preferred? (ranked : IsRanked wins) (picked : preferred? wins l = some a) :
    IsPreferred wins l a := by
  induction l generalizing a with
  | nil => cases picked
  | cons x rest ih =>
    rw [preferred?] at picked
    cases kept : preferred? wins rest with
    | none =>
      rw [kept] at picked
      cases picked
      obtain rfl := preferred?_eq_none_iff.mp kept
      exact ⟨[],[],rfl,nofun,nofun⟩
    | some b =>
      obtain ⟨before,after,rfl,lose,win⟩ := ih kept
      rw [kept] at picked
      dsimp only at picked
      split_ifs at picked with here
      · cases picked
        refine ⟨[],_,rfl,nofun,fun c member => ?_⟩
        rcases List.mem_append.mp member with early | late
        · exact ranked.cotrans _ _ _ here (lose c early)
        · rcases List.mem_cons.mp late with rfl | behind
          · exact here
          · exact ranked.trans _ _ _ here (win c behind)
      · cases picked
        refine ⟨x :: before,after,rfl,fun c member => ?_,win⟩
        rcases List.mem_cons.mp member with rfl | early
        · exact Bool.eq_false_iff.mpr here
        · exact lose c early

theorem preferred?_eq_some_iff (ranked : IsRanked wins) : preferred? wins l = some a ↔ IsPreferred wins l a := by
  refine ⟨isPreferred_of_preferred? ranked,fun preferred => ?_⟩
  cases picked : preferred? wins l with
  | none =>
    obtain rfl := preferred?_eq_none_iff.mp picked
    cases preferred.mem
  | some b => rw [(isPreferred_of_preferred? ranked picked).unique preferred]

/-- The last of the elements with the greatest rank. -/
def IsLastGreatest (rank : α → Nat) : List α → α → Prop := IsPreferred fun a b => rank b < rank a

/-- The first of the elements with the least rank. -/
def IsFirstLeast (rank : α → Nat) : List α → α → Prop := IsPreferred fun a b => rank a ≤ rank b

theorem lastGreatest?_eq (rank : α → Nat) (l : List α) : lastGreatest? rank l = preferred? (fun a b => rank b < rank a) l := by
  induction l with
  | nil => rfl
  | cons a rest ih =>
    rw [lastGreatest?,preferred?,ih]
    cases preferred? (fun a b => rank b < rank a) rest <;> simp only [decide_eq_true_eq]

theorem firstLeast?_eq (rank : α → Nat) (l : List α) : firstLeast? rank l = preferred? (fun a b => rank a ≤ rank b) l := by
  induction l with
  | nil => rfl
  | cons a rest ih =>
    rw [firstLeast?,preferred?,ih]
    cases preferred? (fun a b => rank a ≤ rank b) rest with
    | none => rfl
    | some b => by_cases below : rank b < rank a <;> simp [below,Nat.not_le_of_lt,Nat.le_of_not_lt]

theorem IsFirstLeast.le {b : α} (least : IsFirstLeast rank l a) (member : b ∈ l) : rank a ≤ rank b := by
  obtain ⟨before,after,rfl,lose,win⟩ := least
  simp only [decide_eq_false_iff_not,decide_eq_true_eq] at lose win
  rcases List.mem_append.mp member with early | late
  · have := lose b early
    omega
  · rcases List.mem_cons.mp late with rfl | behind
    · exact Nat.le_refl _
    · exact win b behind

theorem lastGreatest?_eq_none_iff : lastGreatest? rank l = none ↔ l = [] := by
  rw [lastGreatest?_eq,preferred?_eq_none_iff]

theorem firstLeast?_eq_none_iff : firstLeast? rank l = none ↔ l = [] := by
  rw [firstLeast?_eq,preferred?_eq_none_iff]

theorem lastGreatest?_eq_some_iff : lastGreatest? rank l = some a ↔ IsLastGreatest rank l a := by
  rw [lastGreatest?_eq,IsLastGreatest]
  refine preferred?_eq_some_iff ⟨fun a b c => ?_,fun a b c => ?_⟩ <;> simp only [decide_eq_true_eq,decide_eq_false_iff_not]
  all_goals omega

theorem firstLeast?_eq_some_iff : firstLeast? rank l = some a ↔ IsFirstLeast rank l a := by
  rw [firstLeast?_eq,IsFirstLeast]
  refine preferred?_eq_some_iff ⟨fun a b c => ?_,fun a b c => ?_⟩ <;> simp only [decide_eq_true_eq,decide_eq_false_iff_not]
  all_goals omega

/-! ### The rendering that is delivered -/

namespace Playable

/-- The playable renderings that are encoded afresh. -/
def encodings (p : Playable) (rs : List Rendering) : List Rendering :=
  (p.filter rs).filter fun r => !r.representation.isCopy

/-- The playable encodings whose bitrate is not above that of their stream. -/
def fitting (p : Playable) (rs : List Rendering) : List Rendering :=
  (p.encodings rs).filter fun r => r.bitrate ≤ r.stream.bitrate

/-- The playable encodings of lower bitrate than a rendering. -/
def lower (p : Playable) (rs : List Rendering) (best : Rendering) : List Rendering :=
  (p.encodings rs).filter fun r => r.bitrate < best.bitrate

/-- Nothing in a list is a copy that can be played. -/
def LacksCopies (p : Playable) (rs : List Rendering) : Prop :=
  ∀ r ∈ rs, p.plays r = true → r.representation.isCopy = false

/-- A rendering is the one to deliver of a stream. -/
inductive Delivers (p : Playable) (rs : List Rendering) : Rendering → Prop
  /-- The first copy that can be played. -/
  | copy {best : Rendering} (before after : List Rendering) (here : rs = before ++ best :: after)
      (plays : p.plays best = true) (copies : best.representation.isCopy = true) (first : p.LacksCopies before) :
      Delivers p rs best
  /-- The last of the encodings with the greatest bitrate that is not above that of the stream. -/
  | fitting {best : Rendering} (lacks : p.LacksCopies rs) (greatest : IsLastGreatest Rendering.bitrate (p.fitting rs) best) :
      Delivers p rs best
  /-- The first of the encodings with the least bitrate, when all are above their streams. -/
  | least {best : Rendering} (lacks : p.LacksCopies rs) (above : p.fitting rs = [])
      (least : IsFirstLeast Rendering.bitrate (p.encodings rs) best) : Delivers p rs best

variable {p : Playable} {rs rs' : List Rendering} {r best : Rendering}

theorem mem_filter : r ∈ p.filter rs ↔ r ∈ rs ∧ p.plays r = true := List.mem_filter

theorem mem_encodings : r ∈ p.encodings rs ↔ r ∈ p.filter rs ∧ r.representation.isCopy = false := by
  simp only [encodings,List.mem_filter,Bool.not_eq_true']

theorem encodings_of_lacksCopies (lacks : p.LacksCopies rs) : p.encodings rs = p.filter rs := by
  rw [encodings,List.filter_eq_self]
  intro r member
  rw [mem_filter] at member
  rw [lacks r member.1 member.2]
  rfl

theorem encodings_eq_self (encoded : ∀ r ∈ rs, r ∈ p.encodings rs') : p.encodings rs = rs := by
  rw [encodings,filter,List.filter_filter,List.filter_eq_self]
  intro r member
  obtain ⟨listed,encoded⟩ := mem_encodings.mp (encoded r member)
  rw [encoded,(mem_filter.mp listed).2]
  rfl

theorem lacksCopies_of_encodings (encoded : ∀ r ∈ rs, r ∈ p.encodings rs') : p.LacksCopies rs :=
  fun r member _ => (mem_encodings.mp (encoded r member)).2

theorem lacksCopies_iff : p.LacksCopies rs ↔ (p.filter rs).find? (·.representation.isCopy) = none := by
  simp only [LacksCopies,List.find?_eq_none,mem_filter,and_imp,Bool.not_eq_true]

/-- The first copy among the playable renderings is the first playable copy among all. -/
theorem find?_copy_iff : (p.filter rs).find? (·.representation.isCopy) = some best ↔
    ∃ before after, rs = before ++ best :: after ∧ p.plays best = true ∧ best.representation.isCopy = true ∧
      p.LacksCopies before := by
  rw [filter,List.find?_filter,List.find?_eq_some_iff_append]
  simp only [decide_eq_true_eq,Bool.not_eq_true',decide_eq_false_iff_not,not_and,Bool.not_eq_true]
  constructor
  · rintro ⟨⟨plays,copies⟩,before,after,here,first⟩
    exact ⟨before,after,here,plays,copies,first⟩
  · rintro ⟨before,after,here,plays,copies,first⟩
    exact ⟨⟨plays,copies⟩,before,after,here,first⟩

theorem chooseBest_of_lacksCopies (lacks : p.LacksCopies rs) : chooseBest p rs =
    (lastGreatest? Rendering.bitrate (p.fitting rs)).or (firstLeast? Rendering.bitrate (p.encodings rs)) := by
  rw [chooseBest,fitting,encodings_of_lacksCopies lacks]
  simp only [lacksCopies_iff.mp lacks]
  split <;> rename_i greatest <;> rw [greatest] <;> rfl

theorem delivers_of_chooseBest (chosen : chooseBest p rs = some best) : p.Delivers rs best := by
  cases copy : (p.filter rs).find? (·.representation.isCopy) with
  | some other =>
    simp only [chooseBest,copy,Option.some.injEq] at chosen
    obtain rfl := chosen
    obtain ⟨before,after,here,plays,copies,first⟩ := find?_copy_iff.mp copy
    exact .copy before after here plays copies first
  | none =>
    have lacks := lacksCopies_iff.mpr copy
    rw [chooseBest_of_lacksCopies lacks,Option.or_eq_some_iff] at chosen
    rcases chosen with greatest | ⟨none,least⟩
    · exact .fitting lacks (lastGreatest?_eq_some_iff.mp greatest)
    · exact .least lacks (lastGreatest?_eq_none_iff.mp none) (firstLeast?_eq_some_iff.mp least)

theorem Delivers.chosen (delivers : p.Delivers rs best) : chooseBest p rs = some best := by
  cases delivers with
  | copy before after here plays copies first =>
    have found := find?_copy_iff.mpr ⟨before,after,here,plays,copies,first⟩
    simp only [chooseBest,found]
  | fitting lacks greatest =>
    rw [chooseBest_of_lacksCopies lacks,lastGreatest?_eq_some_iff.mpr greatest]
    rfl
  | least lacks above least =>
    rw [chooseBest_of_lacksCopies lacks,lastGreatest?_eq_none_iff.mpr above,firstLeast?_eq_some_iff.mpr least]
    rfl

theorem chooseBest_eq_some_iff : chooseBest p rs = some best ↔ p.Delivers rs best :=
  ⟨delivers_of_chooseBest,Delivers.chosen⟩

theorem Delivers.mem (delivers : p.Delivers rs best) : best ∈ p.filter rs := by
  cases delivers with
  | copy before after here plays copies first =>
    rw [mem_filter,here]
    exact ⟨List.mem_append_right before List.mem_cons_self,plays⟩
  | fitting lacks greatest => exact (mem_encodings.mp (List.mem_filter.mp greatest.mem).1).1
  | least lacks above least => exact (mem_encodings.mp least.mem).1

theorem chooseBest_eq_none_iff : chooseBest p rs = none ↔ ∀ r ∈ rs, p.plays r = false := by
  constructor
  · intro chosen
    have lacks : p.LacksCopies rs := by
      rw [lacksCopies_iff]
      cases copy : (p.filter rs).find? (·.representation.isCopy) with
      | none => rfl
      | some other =>
        simp only [chooseBest,copy] at chosen
        cases chosen
    rw [chooseBest_of_lacksCopies lacks,Option.or_eq_none_iff,firstLeast?_eq_none_iff,encodings_of_lacksCopies lacks,
      filter,List.filter_eq_nil_iff] at chosen
    exact fun r member => Bool.eq_false_iff.mpr (chosen.2 r member)
  · intro silent
    cases chosen : chooseBest p rs with
    | none => rfl
    | some best =>
      obtain ⟨member,plays⟩ := mem_filter.mp (delivers_of_chooseBest chosen).mem
      rw [silent best member] at plays
      cases plays

/-! ### The ladder -/

/-- The order of a ladder. -/
abbrev falls (r r' : Rendering) : Bool := r'.bitrate ≤ r.bitrate

/-- Some renderings are the ladder below another one: they are the playable encodings of lower bitrate, each as often as
    it is listed, those of higher bitrate first, and those of one bitrate in the order in which they are listed. -/
structure IsLadder (p : Playable) (rs : List Rendering) (best : Rendering) (rungs : List Rendering) : Prop where
  perm : rungs.Perm (p.lower rs best)
  falling : rungs.Pairwise fun r r' => r'.bitrate ≤ r.bitrate
  stable : ∀ bitrate, rungs.filter (·.bitrate = bitrate) = (p.lower rs best).filter (·.bitrate = bitrate)

theorem falls_trans (r r' r'' : Rendering) (first : falls r r' = true) (second : falls r' r'' = true) :
    falls r r'' = true := by
  simp only [falls,decide_eq_true_eq] at first second ⊢
  omega

theorem falls_total (r r' : Rendering) : (falls r r' || falls r' r) = true := by
  simp only [falls,Bool.or_eq_true,decide_eq_true_eq]
  omega

/-- Sorting by bitrate leaves renderings of one bitrate in their order. -/
theorem filter_mergeSort (rs : List Rendering) (bitrate : Nat) :
    (rs.mergeSort falls).filter (·.bitrate = bitrate) = rs.filter (·.bitrate = bitrate) := by
  have alike : (rs.filter (·.bitrate = bitrate)).Pairwise fun r r' => falls r r' = true := by
    refine List.pairwise_of_forall_mem_list fun r member r' member' => ?_
    simp only [List.mem_filter,decide_eq_true_eq] at member member'
    simp only [falls,decide_eq_true_eq,member.2,member'.2,Nat.le_refl]
  have inside := (List.sublist_mergeSort falls_trans falls_total alike List.filter_sublist).filter (·.bitrate = bitrate)
  rw [List.filter_filter] at inside
  simp only [Bool.and_self] at inside
  exact (inside.eq_of_length ((List.mergeSort_perm rs falls).filter _).length_eq.symm).symm

theorem isLadder_mergeSort (p : Playable) (rs : List Rendering) (best : Rendering) :
    p.IsLadder rs best ((p.lower rs best).mergeSort falls) where
  perm := List.mergeSort_perm _ _
  falling := (List.pairwise_mergeSort falls_trans falls_total _).imp of_decide_eq_true
  stable := filter_mergeSort _

theorem lower_eq (p : Playable) (rs : List Rendering) (best : Rendering) : p.lower rs best =
    (p.filter rs).filter fun r => !r.representation.isCopy && r.bitrate < best.bitrate := by
  simp only [lower,encodings,List.filter_filter,Bool.and_comm]

theorem selectLadder_of_chooseBest (chosen : chooseBest p rs = some best) :
    selectLadder p rs = best :: (p.lower rs best).mergeSort falls := by
  simp only [selectLadder,chosen,lower_eq]

theorem selectLadder_eq_nil_iff : selectLadder p rs = [] ↔ chooseBest p rs = none := by
  cases chosen : chooseBest p rs with
  | none => simp [selectLadder,chosen]
  | some best => simp [selectLadder_of_chooseBest chosen]

theorem IsLadder.mem {rungs : List Rendering} (ladder : p.IsLadder rs best rungs) (rung : r ∈ rungs) :
    r ∈ p.encodings rs ∧ r.bitrate < best.bitrate := by
  have lower := List.mem_filter.mp (ladder.perm.mem_iff.mp rung)
  exact ⟨lower.1,of_decide_eq_true lower.2⟩

/-- Of a rendering with the ladder below it the same one is delivered. -/
theorem Delivers.again {rungs : List Rendering} (delivers : p.Delivers rs best) (ladder : p.IsLadder rs best rungs) :
    p.Delivers (best :: rungs) best := by
  cases delivers with
  | copy before after here plays copies first =>
    exact .copy [] rungs rfl plays copies fun r none => absurd none List.not_mem_nil
  | fitting lacks greatest =>
    obtain ⟨encoded,fits⟩ := List.mem_filter.mp greatest.mem
    have encoded : ∀ r ∈ best :: rungs, r ∈ p.encodings rs :=
      List.forall_mem_cons.mpr ⟨encoded,fun r rung => (ladder.mem rung).1⟩
    refine .fitting (lacksCopies_of_encodings encoded) ⟨[],rungs.filter fun r => r.bitrate ≤ r.stream.bitrate,?_,?_,?_⟩
    · rw [Playable.fitting,encodings_eq_self encoded]
      exact List.filter_cons_of_pos fits
    · exact fun r none => absurd none List.not_mem_nil
    · exact fun r rung => decide_eq_true (ladder.mem (List.mem_filter.mp rung).1).2
  | least lacks above least =>
    have none : rungs = [] := by
      refine List.eq_nil_iff_forall_not_mem.mpr fun r rung => ?_
      have lower := (ladder.mem rung).2
      have := least.le (ladder.mem rung).1
      omega
    have encoded : ∀ r ∈ [best], r ∈ p.encodings rs := by
      rintro r (_ | ⟨_,⟨⟩⟩)
      exact least.mem
    rw [none]
    refine .least (lacksCopies_of_encodings encoded) ?_ ?_
    · rw [Playable.fitting,encodings_eq_self encoded,List.filter_eq_nil_iff]
      rintro r (_ | ⟨_,⟨⟩⟩)
      exact List.filter_eq_nil_iff.mp above best least.mem
    · rw [encodings_eq_self encoded]
      exact ⟨[],[],rfl,fun r none => absurd none List.not_mem_nil,fun r none => absurd none List.not_mem_nil⟩

/-- Of a rendering with the ladder below it the same ladder is offered. -/
theorem IsLadder.again {rungs : List Rendering} (ladder : p.IsLadder rs best rungs) :
    (p.lower (best :: rungs) best).mergeSort falls = rungs := by
  have same : p.lower (best :: rungs) best = rungs := by
    rw [lower,encodings,filter,List.filter_filter,List.filter_filter,List.filter_cons_of_neg (by simp),
      List.filter_eq_self]
    intro r rung
    obtain ⟨encoded,below⟩ := ladder.mem rung
    obtain ⟨listed,encoded⟩ := mem_encodings.mp encoded
    simp only [below,encoded,(mem_filter.mp listed).2,decide_true,Bool.not_false,Bool.and_self]
  rw [same]
  exact List.mergeSort_of_pairwise (ladder.falling.imp decide_eq_true)

theorem selectLadder_idem (p : Playable) (rs : List Rendering) : selectLadder p (selectLadder p rs) = selectLadder p rs := by
  cases chosen : chooseBest p rs with
  | none =>
    rw [selectLadder_eq_nil_iff.mpr chosen]
    rfl
  | some best =>
    have ladder := isLadder_mergeSort p rs best
    have again := ((delivers_of_chooseBest chosen).again ladder).chosen
    rw [selectLadder_of_chooseBest chosen,selectLadder_of_chooseBest again,ladder.again]

/-- What is delivered of a list of renderings and what is offered of it. Nothing is delivered exactly if nothing can be
    played; else the first playable copy is, or the encoding of greatest bitrate that is not above its stream's, or the
    one of least bitrate. Offered is what is delivered with the ladder below it, and what is offered of that is the same. -/
theorem ladder_below_delivered (p : Playable) (rs : List Rendering) :
    (chooseBest p rs = none ↔ ∀ r ∈ rs, p.plays r = false) ∧
    (∀ best, chooseBest p rs = some best ↔ p.Delivers rs best) ∧
    (selectLadder p rs = [] ↔ chooseBest p rs = none) ∧
    (∀ best, chooseBest p rs = some best ↔ ∃ rungs, selectLadder p rs = best :: rungs ∧ p.IsLadder rs best rungs) ∧
    selectLadder p (selectLadder p rs) = selectLadder p rs := by
  refine ⟨chooseBest_eq_none_iff,fun _ => chooseBest_eq_some_iff,selectLadder_eq_nil_iff,fun best => ⟨?_,?_⟩,
    selectLadder_idem p rs⟩
  · exact fun chosen => ⟨_,selectLadder_of_chooseBest chosen,isLadder_mergeSort p rs best⟩
  · rintro ⟨rungs,offered,_⟩
    cases chosen : chooseBest p rs with
    | none =>
      rw [selectLadder_eq_nil_iff.mpr chosen] at offered
      cases offered
    | some other =>
      rw [selectLadder_of_chooseBest chosen] at offered
      rw [(List.cons.inj offered).1]

end Playable
end Playout
