import Mathlib.Data.List.Forall2
import Playout.Proofs.Text.Split
import Playout.Proofs.Text.Utf8
import Playout.Text.Blank

/-!
Bytes that are read in pieces. A character that is cut through is read as replacement characters, one or more, and so
are the beginnings of characters that break off: the text is the same up to characters that are neither ASCII nor white
space (`Alike`). Only where the bytes of a white-space character stand on both sides of a cut more than that is changed.
-/
namespace Playout.Text

/-- A character that is neither in ASCII nor white space. -/
structure IsForeign (c : Char) : Prop where
  wide : 0x80 ≤ c.toNat
  solid : isBlank c = false

/-- Texts that differ at most in foreign characters, where both have some. -/
inductive Alike : List Char → List Char → Prop
  | nil : Alike [] []
  | same (c : Char) {s t : List Char} (rest : Alike s t) : Alike (c :: s) (c :: t)
  | foreign {u v s t : List Char} (some : u ≠ []) (some' : v ≠ []) (all : ∀ c ∈ u, IsForeign c)
      (all' : ∀ c ∈ v, IsForeign c) (rest : Alike s t) : Alike (u ++ s) (v ++ t)

theorem IsForeign.ne {c d : Char} (foreign : IsForeign c) (ascii : d.toNat < 0x80) : c ≠ d := by
  rintro rfl
  exact absurd foreign.wide (Nat.not_le_of_lt ascii)

theorem IsForeign.not_mem {c : Char} {word : List Char} (foreign : IsForeign c)
    (ascii : word.all fun c => c.toNat < 0x80) : c ∉ word := fun member =>
  absurd (of_decide_eq_true (List.all_eq_true.mp ascii c member)) (Nat.not_lt_of_le foreign.wide)

theorem not_mem_of_foreign {u : List Char} {d : Char} (all : ∀ c ∈ u, IsForeign c) (ascii : d.toNat < 0x80) : d ∉ u :=
  fun member => (all d member).ne ascii rfl

namespace Alike

variable {s t s' t' : List Char}

theorem refl (s : List Char) : Alike s s := by
  induction s with
  | nil => exact .nil
  | cons c s ih => exact .same c ih

theorem append (alike : Alike s t) (alike' : Alike s' t') : Alike (s ++ s') (t ++ t') := by
  induction alike with
  | nil => exact alike'
  | same c rest ih => exact .same c ih
  | foreign some some' all all' rest ih =>
    rw [List.append_assoc,List.append_assoc]
    exact .foreign some some' all all' ih

theorem reverse (alike : Alike s t) : Alike s.reverse t.reverse := by
  induction alike with
  | nil => exact .nil
  | same c rest ih =>
    rw [List.reverse_cons,List.reverse_cons]
    exact ih.append (.refl [c])
  | @foreign u v s t some some' all all' rest ih =>
    have turned : Alike (u.reverse ++ []) (v.reverse ++ []) := by
      refine .foreign ?_ ?_ ?_ ?_ .nil <;> simpa
    rw [List.append_nil,List.append_nil] at turned
    rw [List.reverse_append,List.reverse_append]
    exact ih.append turned

/-- Texts that are alike are the same, or both have foreign characters. -/
theorem eq_or_foreign (alike : Alike s t) : s = t ∨ (∃ c ∈ s, IsForeign c) ∧ ∃ c ∈ t, IsForeign c := by
  induction alike with
  | nil => exact .inl rfl
  | same c rest ih =>
    rcases ih with rfl | ⟨⟨d,member,odd⟩,⟨d',member',odd'⟩⟩
    · exact .inl rfl
    · exact .inr ⟨⟨d,List.mem_cons_of_mem c member,odd⟩,⟨d',List.mem_cons_of_mem c member',odd'⟩⟩
  | foreign some some' all all' rest ih =>
    obtain ⟨c,member⟩ := List.exists_mem_of_ne_nil _ some
    obtain ⟨c',member'⟩ := List.exists_mem_of_ne_nil _ some'
    exact .inr ⟨⟨c,List.mem_append_left _ member,all c member⟩,⟨c',List.mem_append_left _ member',all' c' member'⟩⟩

/-- Letters that are not foreign are dropped from the beginnings of both texts. -/
theorem dropWhile (alike : Alike s t) {drops : Char → Bool} (keeps : ∀ c, IsForeign c → drops c = false) :
    Alike (s.dropWhile drops) (t.dropWhile drops) := by
  induction alike with
  | nil => exact .nil
  | same c rest ih =>
    rw [List.dropWhile_cons,List.dropWhile_cons]
    split
    · exact ih
    · exact .same c rest
  | @foreign u v s t some some' all all' rest ih =>
    have stays {w : List Char} (some : w ≠ []) (all : ∀ c ∈ w, IsForeign c) (s : List Char) :
        (w ++ s).dropWhile drops = w ++ s := by
      cases w with
      | nil => exact absurd rfl some
      | cons c w =>
        rw [List.cons_append,List.dropWhile_cons,keeps c (all c List.mem_cons_self)]
        rfl
    rw [stays some all,stays some' all']
    exact .foreign some some' all all' rest

theorem trim (alike : Alike s t) : Alike (Text.trim s) (Text.trim t) := by
  have keeps : ∀ c, IsForeign c → isBlank c = false := fun _ foreign => foreign.solid
  exact ((alike.dropWhile keeps).reverse.dropWhile keeps).reverse

theorem rel_map {α β γ δ : Type} {r : α → β → Prop} {r' : γ → δ → Prop} {f : α → γ} {g : β → δ} {a : Option α}
    {b : Option β} (rel : Option.Rel r a b) (maps : ∀ x y, r x y → r' (f x) (g y)) :
    Option.Rel r' (a.map f) (b.map g) := by
  cases rel with
  | none => exact .none
  | some here => exact .some (maps _ _ here)

/-- At a letter of ASCII both texts are cut, or none is. -/
theorem splitFirst? (alike : Alike s t) {sep : Char} (ascii : sep.toNat < 0x80) :
    Option.Rel (fun p q => Alike p.1 q.1 ∧ Alike p.2 q.2) (Text.splitFirst? sep s) (Text.splitFirst? sep t) := by
  induction alike with
  | nil => exact .none
  | same c rest ih =>
    rw [Text.splitFirst?,Text.splitFirst?]
    split_ifs
    · exact .some ⟨.nil,rest⟩
    · exact rel_map ih fun _ _ parts => ⟨.same c parts.1,parts.2⟩
  | @foreign u v s t some some' all all' rest ih =>
    rw [splitFirst?_behind (not_mem_of_foreign all ascii),splitFirst?_behind (not_mem_of_foreign all' ascii)]
    exact rel_map ih fun _ _ parts => ⟨.foreign some some' all all' parts.1,parts.2⟩

theorem modifyHead {ls ms : List (List Char)} {u v : List Char} (alike : Alike u v) (parts : List.Forall₂ Alike ls ms) :
    List.Forall₂ Alike (ls.modifyHead (u ++ ·)) (ms.modifyHead (v ++ ·)) := by
  cases parts with
  | nil => exact .nil
  | cons first parts => exact .cons (alike.append first) parts

/-- At every place of a letter of ASCII both texts are cut. -/
theorem splitAll (alike : Alike s t) {sep : Char} (ascii : sep.toNat < 0x80) :
    List.Forall₂ Alike (Text.splitAll sep s) (Text.splitAll sep t) := by
  induction alike with
  | nil => exact .cons .nil .nil
  | @same c s t rest ih =>
    by_cases here : c = sep
    · rw [Text.splitAll,Text.splitAll,if_pos here,if_pos here]
      exact .cons .nil ih
    · have apart : sep ∉ [c] := fun member => here (List.mem_singleton.mp member).symm
      have first (l : List Char) : Text.splitAll sep (c :: l) = (Text.splitAll sep l).modifyHead ([c] ++ ·) :=
        splitAll_behind apart l
      rw [first,first]
      exact modifyHead (.refl [c]) ih
  | @foreign u v s t some some' all all' rest ih =>
    have odd : Alike (u ++ []) (v ++ []) := .foreign some some' all all' .nil
    rw [List.append_nil,List.append_nil] at odd
    rw [splitAll_behind (not_mem_of_foreign all ascii),splitAll_behind (not_mem_of_foreign all' ascii)]
    exact modifyHead odd ih

end Alike

/-! ### Characters that are cut through -/

namespace Utf8

/-- The number of bytes that are read together. -/
def Lead.length : Lead → Nat
  | character _ length | broken length => length

/-- A byte that begins no character. -/
def IsTail (b : UInt8) : Prop := 0x80 ≤ b.toNat ∧ b.toNat < 0xC2

theorem isTail_of_continuation? {b : UInt8} {x : Nat} (read : continuation? b = some x) : IsTail b := by
  obtain ⟨small,rfl⟩ := continuation?_eq_some_iff.mp read
  have value := toNat_toUInt8 (n := 0x80 + x) (by omega)
  exact ⟨by omega,by omega⟩

theorem isTail_of_second? {first : Nat} {b : UInt8} {x : Nat} (read : second? first b = some x) : IsTail b := by
  obtain ⟨small,rfl,_⟩ := second?_eq_some_iff.mp read
  have value := toNat_toUInt8 (n := 0x80 + x) (by omega)
  exact ⟨by omega,by omega⟩

/-- How the bytes of a character are read that come after its first one; nothing can come after a byte that begins no
    character. -/
def tails (first : Nat) : List (UInt8 → Option Nat) :=
  if first < 0x80 then []
  else if first < 0xC2 then [fun _ => none]
  else if first < 0xE0 then [continuation?]
  else if first < 0xF0 then [second? first,continuation?]
  else if first < 0xF5 then [second? first,continuation?,continuation?]
  else [fun _ => none]

/-- The number of bytes that can be read, each in its way, before one cannot. -/
def follow : List (UInt8 → Option Nat) → List UInt8 → Nat
  | read :: reads, x :: bytes => if (read x).isSome then follow reads bytes + 1 else 0
  | [], _ | _ :: _, [] => 0

theorem isTail_of_mem_tails {first : Nat} {read : UInt8 → Option Nat} (member : read ∈ tails first) {x : UInt8}
    (reads : (read x).isSome) : IsTail x := by
  obtain ⟨v,here⟩ := Option.isSome_iff_exists.mp reads
  unfold tails at member
  split_ifs at member <;> simp only [List.mem_cons,List.not_mem_nil,or_false] at member
  · rw [member] at here
    cases here
  · exact isTail_of_continuation? (member ▸ here)
  · rcases member with rfl | rfl
    · exact isTail_of_second? here
    · exact isTail_of_continuation? here
  · rcases member with rfl | rfl | rfl
    · exact isTail_of_second? here
    · exact isTail_of_continuation? here
    · exact isTail_of_continuation? here
  · rw [member] at here
    cases here

theorem follow_le (reads : List (UInt8 → Option Nat)) (bytes : List UInt8) : follow reads bytes ≤ bytes.length := by
  fun_induction follow reads bytes with
  | case1 read reads x bytes here ih => exact Nat.succ_le_succ ih
  | case2 | case3 | case4 => exact Nat.zero_le _

/-- When all bytes are read, reading goes on with those that come after them; else nothing changes. -/
theorem follow_append (reads : List (UInt8 → Option Nat)) (bytes more : List UInt8) : follow reads (bytes ++ more) =
    follow reads bytes + if follow reads bytes = bytes.length then follow (reads.drop bytes.length) more else 0 := by
  fun_induction follow reads bytes with
  | case1 read reads x bytes here ih =>
    rw [List.cons_append,follow,if_pos here,ih]
    simp only [List.length_cons,Nat.add_right_cancel_iff,List.drop_succ_cons]
    omega
  | case2 read reads x bytes here =>
    rw [List.cons_append,follow,if_neg here,List.length_cons,if_neg (by omega)]
  | case3 bytes => cases bytes <;> cases more <;> simp [follow]
  | case4 read reads => simp

theorem forall_take_follow (reads : List (UInt8 → Option Nat)) (bytes : List UInt8) :
    ∀ x ∈ bytes.take (follow reads bytes), ∃ read ∈ reads, (read x).isSome := by
  fun_induction follow reads bytes with
  | case1 read reads x bytes here ih =>
    rw [List.take_succ_cons,List.forall_mem_cons]
    refine ⟨⟨read,List.mem_cons_self,here⟩,fun y member => ?_⟩
    obtain ⟨read',among,reads⟩ := ih y member
    exact ⟨read',List.mem_cons_of_mem read among,reads⟩
  | case2 | case3 | case4 => nofun

/-- A character is read when as many bytes follow as it has, and else they are replaced together. -/
theorem lead_eq (b : UInt8) (rest : List UInt8) :
    (∃ c, lead b rest = .character c (follow (tails b.toNat) rest + 1)) ∧
      follow (tails b.toNat) rest = (tails b.toNat).length ∨
    lead b rest = .broken (follow (tails b.toNat) rest + 1) ∧
      follow (tails b.toNat) rest < (tails b.toNat).length := by
  unfold lead tails
  dsimp only
  split_ifs with one broken two three four
  · simp [follow]
  · cases rest <;> simp [follow]
  · rcases rest with _ | ⟨x,rest⟩
    · simp [follow]
    · cases second : continuation? x <;> simp [follow,second]
  · rcases rest with _ | ⟨x,rest⟩
    · simp [follow]
    · cases second : second? b.toNat x with
      | none => simp [follow,second]
      | some _ =>
        rcases rest with _ | ⟨y,rest⟩
        · simp [follow,second]
        · cases third : continuation? y <;> simp [follow,second,third]
  · rcases rest with _ | ⟨x,rest⟩
    · simp [follow]
    · cases second : second? b.toNat x with
      | none => simp [follow,second]
      | some _ =>
        rcases rest with _ | ⟨y,rest⟩
        · simp [follow,second]
        · cases third : continuation? y with
          | none => simp [follow,second,third]
          | some _ =>
            rcases rest with _ | ⟨z,rest⟩
            · simp [follow,second,third]
            · cases fourth : continuation? z <;> simp [follow,second,third,fourth]
  · cases rest <;> simp [follow]

/-- What is read in the place of some bytes. -/
def Lead.shown : Lead → Char
  | character c _ => c
  | broken _ => '\uFFFD'

theorem decodeLossyFrom_eq (skip : Nat) (bytes : List UInt8) : decodeLossyFrom skip bytes = decodeLossy (bytes.drop skip) := by
  induction bytes generalizing skip with
  | nil => cases skip <;> rfl
  | cons b rest ih =>
    cases skip with
    | zero => rfl
    | succ skip => exact ih skip

theorem decodeLossy_cons (b : UInt8) (rest : List UInt8) : decodeLossy (b :: rest) =
    (lead b rest).shown :: decodeLossy (rest.drop ((lead b rest).length - 1)) := by
  rw [decodeLossy,decodeLossyFrom]
  cases lead b rest <;> exact congrArg _ (decodeLossyFrom_eq _ _)

theorem lead_of_isTail {b : UInt8} (tail : IsTail b) (rest : List UInt8) : lead b rest = .broken 1 := by
  unfold lead
  dsimp only
  rw [if_neg (Nat.not_lt_of_le tail.1),if_pos tail.2]

theorem decodeLossy_tails {bytes : List UInt8} (tails : ∀ b ∈ bytes, IsTail b) (rest : List UInt8) :
    decodeLossy (bytes ++ rest) = List.replicate bytes.length '\uFFFD' ++ decodeLossy rest := by
  induction bytes with
  | nil => rfl
  | cons b bytes ih =>
    rw [List.forall_mem_cons] at tails
    rw [List.cons_append,decodeLossy_cons,lead_of_isTail tails.1]
    exact congrArg _ (ih tails.2)

theorem isForeign_replacement : IsForeign '\uFFFD' := ⟨by decide,by decide⟩

/-- The bytes of a white-space character stand on both sides of a cut. -/
def CutsBlank (left right : List UInt8) : Prop :=
  ∃ c inner outer, isBlank c = true ∧ encodeChar c = inner ++ outer ∧ inner ≠ [] ∧ outer ≠ [] ∧ inner <:+ left ∧
    outer <+: right

/-- The characters of white space. -/
def blanks : List Char :=
  (List.range' 9 5 ++ [0x20,0x85,0xA0,0x1680] ++ List.range' 0x2000 11 ++ [0x2028,0x2029,0x202F,0x205F,0x3000]).map Char.ofNat

theorem mem_blanks {c : Char} : c ∈ blanks ↔ isBlank c = true := by
  constructor
  · have all : blanks.all isBlank = true := by decide
    exact List.all_eq_true.mp all c
  · intro blank
    refine List.mem_map.mpr ⟨c.toNat,?_,Char.ofNat_toNat c⟩
    simp only [isBlank,Bool.or_eq_true,Bool.and_eq_true,decide_eq_true_eq,beq_iff_eq] at blank
    simp only [List.mem_append,List.mem_range'_1,List.mem_cons,List.not_mem_nil,or_false]
    omega

theorem cutsBlank_iff {left right : List UInt8} : CutsBlank left right ↔ ∃ c ∈ blanks, ∃ n < (encodeChar c).length,
    0 < n ∧ (encodeChar c).take n <:+ left ∧ (encodeChar c).drop n <+: right := by
  constructor
  · rintro ⟨c,inner,outer,blank,bytes,some,some',ends,begins⟩
    have := List.length_pos_iff.mpr some
    have := List.length_pos_iff.mpr some'
    refine ⟨c,mem_blanks.mpr blank,inner.length,?_,by omega,?_,?_⟩
    · rw [bytes,List.length_append]
      omega
    · rw [bytes,List.take_left]
      exact ends
    · rw [bytes,List.drop_left]
      exact begins
  · rintro ⟨c,blank,n,inside,some,ends,begins⟩
    refine ⟨c,_,_,mem_blanks.mp blank,(List.take_append_drop n _).symm,?_,?_,ends,begins⟩
    · exact List.ne_nil_of_length_pos (by rw [List.length_take]; omega)
    · exact List.ne_nil_of_length_pos (by rw [List.length_drop]; omega)

-- the list of blanks is searched, and not the characters
instance (left right : List UInt8) : Decidable (CutsBlank left right) :=
  @decidable_of_iff _ _ cutsBlank_iff.symm (List.decidableBEx _ blanks)

theorem CutsBlank.mono {left left' right : List UInt8} (cuts : CutsBlank left right) (longer : left <:+ left') :
    CutsBlank left' right := by
  obtain ⟨c,inner,outer,blank,bytes,some,some',ends,begins⟩ := cuts
  exact ⟨c,inner,outer,blank,bytes,some,some',ends.trans longer,begins⟩

/-- What is read at the beginning of some bytes stays when there are more, unless the bytes break off within a character. -/
theorem lead_append {b : UInt8} {rest : List UInt8}
    (settled : follow (tails b.toNat) rest = rest.length → follow (tails b.toNat) rest = (tails b.toNat).length)
    (more : List UInt8) : lead b (rest ++ more) = lead b rest := by
  have reached : follow (tails b.toNat) (rest ++ more) = follow (tails b.toNat) rest := by
    rw [follow_append]
    split_ifs with all
    · rw [List.drop_eq_nil_of_le (by have := settled all; omega),follow]
      rfl
    · rfl
  rcases lead_eq b rest with ⟨⟨c,read⟩,_⟩ | ⟨read,short⟩
  · obtain ⟨tail,after,bytes,rfl,same⟩ := encodeChar_of_lead read
    rw [read,same,List.append_assoc,lead_encodeChar bytes]
  · rcases lead_eq b (rest ++ more) with ⟨_,all⟩ | ⟨read',_⟩
    · omega
    · rw [read,read',reached]

/-- What is read in the place of a character that is cut through is foreign, but for white space. -/
theorem isForeign_shown {b : UInt8} {rest right : List UInt8} (spared : ¬ CutsBlank (b :: rest) right)
    (cut : follow (tails b.toNat) rest = rest.length) (short : follow (tails b.toNat) rest < (tails b.toNat).length) :
    IsForeign (lead b (rest ++ right)).shown := by
  rcases lead_eq b (rest ++ right) with ⟨⟨c,read⟩,all⟩ | ⟨read,_⟩
  · obtain ⟨tail,after,bytes,split,length⟩ := encodeChar_of_lead read
    have reaches : rest.length < tail.length := by omega
    obtain ⟨outer,rfl⟩ : rest <+: tail :=
      List.prefix_of_prefix_length_le (split ▸ List.prefix_append rest right) (List.prefix_append tail after) (Nat.le_of_lt reaches)
    rw [List.append_assoc,List.append_cancel_left_eq] at split
    rw [read]
    have outside : outer ≠ [] := by
      rintro rfl
      simp at reaches
    refine ⟨Nat.le_of_not_lt fun one => ?_,Bool.eq_false_iff.mpr fun blank => ?_⟩
    · have := congrArg List.length ((encodeChar_one one).symm.trans bytes)
      simp only [List.length_cons,List.length_nil] at this
      omega
    · exact spared ⟨c,b :: rest,outer,blank,bytes,nofun,outside,List.suffix_rfl,split ▸ List.prefix_append outer after⟩
  · rw [read]
    exact isForeign_replacement

/-- Bytes that are cut, but not within a white-space character, are read as a text that is alike. -/
theorem alike_decodeLossy_append : ∀ {left right : List UInt8}, ¬ CutsBlank left right →
    Alike (decodeLossy (left ++ right)) (decodeLossy left ++ decodeLossy right)
  | [],right,_ => .refl _
  | b :: rest,right,spared => by
    have bounded := follow_le (tails b.toNat) rest
    have length (rest : List UInt8) : (lead b rest).length = follow (tails b.toNat) rest + 1 := by
      rcases lead_eq b rest with ⟨⟨c,read⟩,_⟩ | ⟨read,_⟩ <;> rw [read] <;> rfl
    rw [List.cons_append,decodeLossy_cons,decodeLossy_cons,List.cons_append,length,length,Nat.add_sub_cancel,
      Nat.add_sub_cancel]
    by_cases cut : follow (tails b.toNat) rest = rest.length ∧ follow (tails b.toNat) rest < (tails b.toNat).length
    · obtain ⟨cut,short⟩ := cut
      let n := follow ((tails b.toNat).drop rest.length) right
      have reached : follow (tails b.toNat) (rest ++ right) = rest.length + n := by
        rw [follow_append,if_pos cut,cut]
      have beyond : ∀ x ∈ right.take n, IsTail x := fun x member => by
        obtain ⟨read,among,reads⟩ := forall_take_follow _ right x member
        exact isTail_of_mem_tails (List.mem_of_mem_drop among) reads
      have behind : decodeLossy right = List.replicate (right.take n).length '\uFFFD' ++ decodeLossy (right.drop n) := by
        rw [← decodeLossy_tails beyond,List.take_append_drop]
      have broken : (lead b rest).shown = '\uFFFD' := by
        rcases lead_eq b rest with ⟨_,all⟩ | ⟨read,_⟩
        · omega
        · rw [read]
          rfl
      have replaced : ∀ c ∈ '\uFFFD' :: List.replicate (right.take n).length '\uFFFD', IsForeign c := by
        intro c member
        rw [← List.replicate_succ] at member
        rw [List.eq_of_mem_replicate member]
        exact isForeign_replacement
      rw [reached,List.drop_length_add_append,cut,List.drop_length,behind,broken]
      exact .foreign (u := [_]) (v := '\uFFFD' :: List.replicate (right.take n).length '\uFFFD') nofun nofun
        (List.forall_mem_singleton.mpr (isForeign_shown spared cut short)) replaced (.refl _)
    · have settled : follow (tails b.toNat) rest = rest.length → follow (tails b.toNat) rest = (tails b.toNat).length := by
        intro all
        rcases lead_eq b rest with ⟨_,whole⟩ | ⟨_,short⟩
        · exact whole
        · exact absurd ⟨all,short⟩ cut
      have same : follow (tails b.toNat) (rest ++ right) = follow (tails b.toNat) rest := by
        have lengths := length (rest ++ right)
        rw [lead_append settled,length] at lengths
        omega
      rw [lead_append settled,same,List.drop_append_of_le_length bounded]
      have later : ¬ CutsBlank (rest.drop (follow (tails b.toNat) rest)) right := fun cuts =>
        spared (cuts.mono ((List.drop_suffix _ rest).trans (List.suffix_cons b rest)))
      exact .same _ (alike_decodeLossy_append later)
termination_by left => left.length
decreasing_by
  simp only [List.length_drop,List.length_cons]
  omega

/-- No white-space character is cut through where pieces of bytes meet. -/
def SparesBlanks (pieces : List (List UInt8)) : Prop :=
  ∀ n < pieces.length, ¬ CutsBlank (pieces.take n).flatten (pieces.drop n).flatten

instance (pieces : List (List UInt8)) : Decidable (SparesBlanks pieces) := Nat.decidableBallLT _ _

theorem not_cutsBlank_nil (left : List UInt8) : ¬ CutsBlank left [] := by
  rintro ⟨c,inner,outer,_,_,_,some,_,begins⟩
  exact some (List.prefix_nil.mp begins)

/-- The first piece meets the others outside white space, and the others meet so, too. -/
theorem SparesBlanks.cons {piece : List UInt8} {pieces : List (List UInt8)} (spares : SparesBlanks (piece :: pieces)) :
    ¬ CutsBlank piece pieces.flatten ∧ SparesBlanks pieces := by
  have later (n : Nat) (inside : n < pieces.length) : ¬ CutsBlank (piece ++ (pieces.take n).flatten) (pieces.drop n).flatten :=
    spares (n + 1) (Nat.succ_lt_succ inside)
  refine ⟨?_,fun n inside cuts => later n inside (cuts.mono (List.suffix_append _ _))⟩
  cases pieces with
  | nil => exact not_cutsBlank_nil piece
  | cons next pieces => simpa using later 0 (Nat.succ_pos _)

end Utf8

end Playout.Text
