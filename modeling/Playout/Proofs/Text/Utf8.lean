import Mathlib.Tactic.SplitIfs
import Playout.Text.Utf8

/-!
The bytes of a text are its UTF-8 as the language's own strings have it (`encode_eq`), and reading takes the bytes
of a text alone: no longer form of a character, no surrogate, no beginning that breaks off
(`decode?_eq_some_iff`).
-/
namespace Playout.Text

theorem toUInt8_eq {n : Nat} {a : UInt8} (same : n = a.toNat) : n.toUInt8 = a := by
  rw [same]
  exact UInt8.ofNat_toNat

theorem toNat_toUInt8 {n : Nat} (small : n < 256) : n.toUInt8.toNat = n := UInt8.toNat_ofNat_of_lt small

/-- A fact about every byte can be checked number by number. -/
theorem forall_byte {P : UInt8 → Prop} (all : ∀ n < 256, P n.toUInt8) (b : UInt8) : P b := by
  have here := all b.toNat b.toNat_lt
  rwa [toUInt8_eq rfl] at here

namespace Utf8

theorem toNat_valid (c : Char) : c.toNat < 0xD800 ∨ 0xDFFF < c.toNat ∧ c.toNat < 0x110000 := c.valid

theorem toNat_ofNat {n : Nat} (valid : n < 0xD800 ∨ 0xDFFF < n ∧ n < 0x110000) : (Char.ofNat n).toNat = n := by
  rw [Char.ofNat,dif_pos valid]
  rfl

/-! ### One character -/

theorem encodeChar_one {c : Char} (n : c.toNat < 0x80) : encodeChar c = [c.toNat.toUInt8] := if_pos n

theorem encodeChar_two {c : Char} (least : 0x80 ≤ c.toNat) (most : c.toNat < 0x800) :
    encodeChar c = [(0xC0 + c.toNat / 64).toUInt8,(0x80 + c.toNat % 64).toUInt8] := by
  rw [encodeChar,if_neg (by omega),if_pos most]

theorem encodeChar_three {c : Char} (least : 0x800 ≤ c.toNat) (most : c.toNat < 0x10000) :
    encodeChar c =
      [(0xE0 + c.toNat / 4096).toUInt8,(0x80 + c.toNat / 64 % 64).toUInt8,(0x80 + c.toNat % 64).toUInt8] := by
  rw [encodeChar,if_neg (by omega),if_neg (by omega),if_pos most]

theorem encodeChar_four {c : Char} (least : 0x10000 ≤ c.toNat) :
    encodeChar c =
      [(0xF0 + c.toNat / 262144).toUInt8,(0x80 + c.toNat / 4096 % 64).toUInt8,(0x80 + c.toNat / 64 % 64).toUInt8,
        (0x80 + c.toNat % 64).toUInt8] := by
  rw [encodeChar,if_neg (by omega),if_neg (by omega),if_neg (by omega)]

theorem continuation?_eq_some_iff {b : UInt8} {x : Nat} :
    continuation? b = some x ↔ x < 64 ∧ b = (0x80 + x).toUInt8 := by
  rw [continuation?]
  constructor
  · intro read
    split_ifs at read with bounds
    have := Option.some.inj read
    exact ⟨by omega,(toUInt8_eq (by omega)).symm⟩
  · rintro ⟨small,rfl⟩
    rw [toNat_toUInt8 (by omega),if_pos (by omega),Nat.add_sub_cancel_left]

theorem second?_eq_some_iff {first : Nat} {b : UInt8} {x : Nat} :
    second? first b = some x ↔ x < 64 ∧ b = (0x80 + x).toUInt8 ∧ (first = 0xE0 → 0x20 ≤ x) ∧ (first = 0xED → x < 0x20) ∧
      (first = 0xF0 → 0x10 ≤ x) ∧ (first = 0xF4 → x < 0x10) := by
  simp only [second?,beq_iff_eq]
  constructor
  · intro read
    split_ifs at read
    all_goals
      have := Option.some.inj read
      exact ⟨by omega,(toUInt8_eq (by omega)).symm,by omega,by omega,by omega,by omega⟩
  · rintro ⟨small,rfl,_,_,_,_⟩
    rw [toNat_toUInt8 (by omega),if_pos (by split_ifs <;> omega),Nat.add_sub_cancel_left]

theorem encodeChar_eq (c : Char) : encodeChar c = String.utf8EncodeChar c := by
  have valid := toNat_valid c
  unfold String.utf8EncodeChar
  change _ = ite (c.toNat ≤ 0x7f) [UInt8.ofNat c.toNat] (ite (c.toNat ≤ 0x7ff)
    [UInt8.ofNat (c.toNat / 64 % 0x20 + 0xc0),UInt8.ofNat (c.toNat % 0x40 + 0x80)] (ite (c.toNat ≤ 0xffff)
    [UInt8.ofNat (c.toNat / 4096 % 0x10 + 0xe0),UInt8.ofNat (c.toNat / 64 % 0x40 + 0x80),
      UInt8.ofNat (c.toNat % 0x40 + 0x80)] _))
  split_ifs with one two three
  · exact encodeChar_one (by omega)
  · rw [encodeChar_two (by omega) (by omega),Nat.mod_eq_of_lt (a := c.toNat / 64) (by omega),Nat.add_comm 0xC0,
      Nat.add_comm 0x80]
  · rw [encodeChar_three (by omega) (by omega),Nat.mod_eq_of_lt (a := c.toNat / 4096) (by omega),Nat.add_comm 0xE0,
      Nat.add_comm 0x80,Nat.add_comm 0x80]
  · rw [encodeChar_four (by omega),Nat.add_comm 0xF0,Nat.add_comm 0x80,Nat.add_comm 0x80,Nat.add_comm 0x80,
      ← Nat.mod_eq_of_lt (show c.toNat / 262144 < 8 by omega)]
    rfl

/-- A character is read from its own bytes, whatever follows them. -/
theorem lead_encodeChar {c : Char} {b : UInt8} {tail : List UInt8} (bytes : encodeChar c = b :: tail)
    (after : List UInt8) : lead b (tail ++ after) = .character c (tail.length + 1) := by
  have valid := toNat_valid c
  by_cases one : c.toNat < 0x80
  · rw [encodeChar_one one] at bytes
    cases bytes
    have first : c.toNat.toUInt8.toNat = c.toNat := toNat_toUInt8 (by omega)
    simp only [lead,first,if_pos one,Char.ofNat_toNat]
    rfl
  by_cases two : c.toNat < 0x800
  · rw [encodeChar_two (by omega) two] at bytes
    cases bytes
    have first : (0xC0 + c.toNat / 64).toUInt8.toNat = 0xC0 + c.toNat / 64 := toNat_toUInt8 (by omega)
    have x := continuation?_eq_some_iff.mpr ⟨Nat.mod_lt c.toNat (by omega : 0 < 64),rfl⟩
    have whole : (0xC0 + c.toNat / 64 - 0xC0) * 64 + c.toNat % 64 = c.toNat := by omega
    simp only [lead,first,List.cons_append,x,whole,Char.ofNat_toNat]
    rw [if_neg (by omega),if_neg (by omega),if_pos (by omega)]
    rfl
  by_cases three : c.toNat < 0x10000
  · rw [encodeChar_three (by omega) three] at bytes
    cases bytes
    have first : (0xE0 + c.toNat / 4096).toUInt8.toNat = 0xE0 + c.toNat / 4096 := toNat_toUInt8 (by omega)
    have x : second? (0xE0 + c.toNat / 4096) (0x80 + c.toNat / 64 % 64).toUInt8 = some (c.toNat / 64 % 64) :=
      second?_eq_some_iff.mpr ⟨by omega,rfl,by omega,by omega,by omega,by omega⟩
    have y := continuation?_eq_some_iff.mpr ⟨Nat.mod_lt c.toNat (by omega : 0 < 64),rfl⟩
    have whole : (0xE0 + c.toNat / 4096 - 0xE0) * 4096 + c.toNat / 64 % 64 * 64 + c.toNat % 64 = c.toNat := by omega
    simp only [lead,first,List.cons_append,x,y,whole,Char.ofNat_toNat]
    rw [if_neg (by omega),if_neg (by omega),if_neg (by omega),if_pos (by omega)]
    rfl
  · rw [encodeChar_four (by omega)] at bytes
    cases bytes
    have first : (0xF0 + c.toNat / 262144).toUInt8.toNat = 0xF0 + c.toNat / 262144 := toNat_toUInt8 (by omega)
    have x : second? (0xF0 + c.toNat / 262144) (0x80 + c.toNat / 4096 % 64).toUInt8 = some (c.toNat / 4096 % 64) :=
      second?_eq_some_iff.mpr ⟨by omega,rfl,by omega,by omega,by omega,by omega⟩
    have y := continuation?_eq_some_iff.mpr ⟨Nat.mod_lt (c.toNat / 64) (by omega : 0 < 64),rfl⟩
    have z := continuation?_eq_some_iff.mpr ⟨Nat.mod_lt c.toNat (by omega : 0 < 64),rfl⟩
    have whole : (0xF0 + c.toNat / 262144 - 0xF0) * 262144 + c.toNat / 4096 % 64 * 4096 + c.toNat / 64 % 64 * 64 +
      c.toNat % 64 = c.toNat := by omega
    simp only [lead,first,List.cons_append,x,y,z,whole,Char.ofNat_toNat]
    rw [if_neg (by omega),if_neg (by omega),if_neg (by omega),if_neg (by omega),if_pos (by omega)]
    rfl

/-- A character is read from no other bytes than its own. -/
theorem encodeChar_of_lead {b : UInt8} {rest : List UInt8} {c : Char} {length : Nat}
    (read : lead b rest = .character c length) :
    ∃ tail after, encodeChar c = b :: tail ∧ rest = tail ++ after ∧ length = tail.length + 1 := by
  have := b.toNat_lt
  unfold lead at read
  simp only at read
  -- One case for each length. What `second?` says of the second byte keeps out longer forms of smaller numbers,
  -- surrogates and numbers past the last character.
  split_ifs at read with one broken two three four
  · obtain ⟨rfl,rfl⟩ := Lead.character.inj read
    have number := toNat_ofNat (n := b.toNat) (by omega)
    refine ⟨[],rest,?_,rfl,rfl⟩
    rw [encodeChar_one (by omega),toUInt8_eq number]
  · rcases rest with _ | ⟨b₂,after⟩
    · cases read
    rcases second : continuation? b₂ with _ | x <;> simp only [second,reduceCtorEq] at read
    obtain ⟨rfl,rfl⟩ := Lead.character.inj read
    obtain ⟨_,rfl⟩ := continuation?_eq_some_iff.mp second
    have number := toNat_ofNat (n := (b.toNat - 0xC0) * 64 + x) (by omega)
    have head : 0xC0 + ((b.toNat - 0xC0) * 64 + x) / 64 = b.toNat := by omega
    have last : ((b.toNat - 0xC0) * 64 + x) % 64 = x := by omega
    refine ⟨[(0x80 + x).toUInt8],after,?_,rfl,rfl⟩
    rw [encodeChar_two (by omega) (by omega),number,head,last,toUInt8_eq rfl]
  · rcases rest with _ | ⟨b₂,_ | ⟨b₃,after⟩⟩
    · cases read
    · rcases second : second? b.toNat b₂ with _ | x <;> simp only [second,reduceCtorEq] at read
    rcases second : second? b.toNat b₂ with _ | x <;> simp only [second,reduceCtorEq] at read
    rcases third : continuation? b₃ with _ | y <;> simp only [third,reduceCtorEq] at read
    obtain ⟨rfl,rfl⟩ := Lead.character.inj read
    obtain ⟨_,rfl,long,surrogate,_,_⟩ := second?_eq_some_iff.mp second
    obtain ⟨_,rfl⟩ := continuation?_eq_some_iff.mp third
    have number := toNat_ofNat (n := (b.toNat - 0xE0) * 4096 + x * 64 + y) (by omega)
    have head : 0xE0 + ((b.toNat - 0xE0) * 4096 + x * 64 + y) / 4096 = b.toNat := by omega
    have middle : ((b.toNat - 0xE0) * 4096 + x * 64 + y) / 64 % 64 = x := by omega
    have last : ((b.toNat - 0xE0) * 4096 + x * 64 + y) % 64 = y := by omega
    refine ⟨[(0x80 + x).toUInt8,(0x80 + y).toUInt8],after,?_,rfl,rfl⟩
    rw [encodeChar_three (by omega) (by omega),number,head,middle,last,toUInt8_eq rfl]
  · rcases rest with _ | ⟨b₂,_ | ⟨b₃,_ | ⟨b₄,after⟩⟩⟩
    · cases read
    · rcases second : second? b.toNat b₂ with _ | x <;> simp only [second,reduceCtorEq] at read
    · rcases second : second? b.toNat b₂ with _ | x <;> simp only [second,reduceCtorEq] at read
      rcases third : continuation? b₃ with _ | y <;> simp only [third,reduceCtorEq] at read
    rcases second : second? b.toNat b₂ with _ | x <;> simp only [second,reduceCtorEq] at read
    rcases third : continuation? b₃ with _ | y <;> simp only [third,reduceCtorEq] at read
    rcases fourth : continuation? b₄ with _ | z <;> simp only [fourth,reduceCtorEq] at read
    obtain ⟨rfl,rfl⟩ := Lead.character.inj read
    obtain ⟨_,rfl,_,_,long,past⟩ := second?_eq_some_iff.mp second
    obtain ⟨_,rfl⟩ := continuation?_eq_some_iff.mp third
    obtain ⟨_,rfl⟩ := continuation?_eq_some_iff.mp fourth
    have number := toNat_ofNat (n := (b.toNat - 0xF0) * 262144 + x * 4096 + y * 64 + z) (by omega)
    have head : 0xF0 + ((b.toNat - 0xF0) * 262144 + x * 4096 + y * 64 + z) / 262144 = b.toNat := by omega
    have middle : ((b.toNat - 0xF0) * 262144 + x * 4096 + y * 64 + z) / 4096 % 64 = x := by omega
    have middle' : ((b.toNat - 0xF0) * 262144 + x * 4096 + y * 64 + z) / 64 % 64 = y := by omega
    have last : ((b.toNat - 0xF0) * 262144 + x * 4096 + y * 64 + z) % 64 = z := by omega
    refine ⟨[(0x80 + x).toUInt8,(0x80 + y).toUInt8,(0x80 + z).toUInt8],after,?_,rfl,rfl⟩
    rw [encodeChar_four (by omega),number,head,middle,middle',last,toUInt8_eq rfl]

/-! ### A whole text -/

theorem encode_cons (c : Char) (s : List Char) : encode (c :: s) = encodeChar c ++ encode s := List.flatMap_cons

theorem encode_append (s s' : List Char) : encode (s ++ s') = encode s ++ encode s' := List.flatMap_append

theorem encode_eq (s : List Char) : (encode s).toByteArray = s.utf8Encode := by
  rw [List.utf8Encode,encode,funext encodeChar_eq]

theorem encodeChar_eq_cons (c : Char) : ∃ b tail, encodeChar c = b :: tail := by
  unfold encodeChar
  simp only
  split_ifs <;> exact ⟨_,_,rfl⟩

/-- The only byte below 128 in the bytes of a character is the character itself. -/
theorem toNat_of_mem_encodeChar {c : Char} {b : UInt8} (member : b ∈ encodeChar c) :
    b.toNat = c.toNat ∧ c.toNat < 0x80 ∨ 0x80 ≤ b.toNat := by
  have valid := toNat_valid c
  unfold encodeChar at member
  simp only at member
  split_ifs at member with one two three
  · obtain rfl := List.mem_singleton.mp member
    exact .inl ⟨toNat_toUInt8 (by omega),one⟩
  all_goals
    simp only [List.mem_cons,List.not_mem_nil,or_false] at member
    right
    rcases member with rfl | rfl | rfl | rfl <;> rw [toNat_toUInt8 (by omega)] <;> omega

theorem decodeFrom?_append (skipped rest : List UInt8) :
    decodeFrom? skipped.length (skipped ++ rest) = decodeFrom? 0 rest := by
  induction skipped with
  | nil => rfl
  | cons b skipped ih => exact ih

theorem decode?_encode (s : List Char) : decode? (encode s) = some s := by
  induction s with
  | nil => rfl
  | cons c s ih =>
    obtain ⟨b,tail,bytes⟩ := encodeChar_eq_cons c
    have read := lead_encodeChar bytes (encode s)
    rw [decode?] at ih
    rw [decode?,encode_cons,bytes,List.cons_append,decodeFrom?,read]
    change (decodeFrom? tail.length (tail ++ encode s)).map (c :: ·) = _
    rw [decodeFrom?_append,ih]
    rfl

theorem encode_of_decode? {bytes : List UInt8} {s : List Char} (read : decode? bytes = some s) :
    bytes = encode s := by
  -- On the text: each character that is read takes its own bytes, and only these, off the front.
  induction s generalizing bytes with
  | nil =>
    rcases bytes with _ | ⟨b,rest⟩
    · rfl
    rw [decode?,decodeFrom?] at read
    rcases first : lead b rest with ⟨c,length⟩ | ⟨length⟩ <;> rw [first] at read <;> simp at read
  | cons c s ih =>
    rcases bytes with _ | ⟨b,rest⟩
    · cases read
    rw [decode?,decodeFrom?] at read
    rcases first : lead b rest with ⟨c',length⟩ | ⟨length⟩
    · obtain ⟨tail,after,bytes,rfl,rfl⟩ := encodeChar_of_lead first
      rw [first] at read
      simp only [Nat.add_sub_cancel,decodeFrom?_append,Option.map_eq_some_iff,List.cons.injEq] at read
      obtain ⟨s',others,rfl,rfl⟩ := read
      rw [encode_cons,bytes,List.cons_append,← ih others]
    · rw [first] at read
      cases read

theorem decode?_eq_some_iff {bytes : List UInt8} {s : List Char} : decode? bytes = some s ↔ bytes = encode s := by
  constructor
  · exact encode_of_decode?
  · rintro rfl
    exact decode?_encode s

end Utf8

end Playout.Text
