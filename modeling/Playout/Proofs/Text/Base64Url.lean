import Mathlib.Algebra.Group.Nat.Defs
import Playout.Proofs.Text.Utf8
import Playout.Text.Base64Url

/-!
Every byte sequence has exactly one text in base64, and reading takes that text alone
(`decode?_eq_some_iff`). The text is what the format says it is: the bits of the bytes, filled up
with zeros and taken six at a time (`spells_iff`).
-/
namespace Playout.Text.Base64Url

/-! ### The alphabet -/

/-- The characters of the values from zero to sixty-three. -/
def alphabet : List Char := "ABCDEFGHIJKLMNOPQRSTUVWXYZabcdefghijklmnopqrstuvwxyz0123456789-_".toList

theorem getElem?_alphabet : ∀ n < 64, alphabet[n]? = some (digit n) := by decide +kernel

theorem digit_mem_alphabet {n : Nat} (small : n < 64) : digit n ∈ alphabet :=
  List.mem_of_getElem? (getElem?_alphabet n small)

theorem value?_digit : ∀ n < 64, value? (digit n) = some n := by decide +kernel

theorem digit_of_ascii : ∀ n < 128, ∀ v < 64, value? (Char.ofNat n) = some v → digit v = Char.ofNat n := by
  decide +kernel

theorem lt_of_value? {c : Char} {v : Nat} (read : value? c = some v) : v < 64 ∧ c.toNat < 128 := by
  simp only [value?,Char.le_def,UInt32.le_iff_toNat_le] at read
  change ite (65 ≤ c.toNat ∧ c.toNat ≤ 90) (some (c.toNat - 65)) (ite (97 ≤ c.toNat ∧ c.toNat ≤ 122)
    (some (c.toNat - 97 + 26)) (ite (48 ≤ c.toNat ∧ c.toNat ≤ 57) (some (c.toNat - 48 + 52)) _)) = _ at read
  split_ifs at read with upper lower number minus line
  · cases read
    omega
  · cases read
    omega
  · cases read
    omega
  · cases read
    exact ⟨by decide,minus ▸ by decide⟩
  · cases read
    exact ⟨by decide,line ▸ by decide⟩

theorem digit_value? {c : Char} {v : Nat} (read : value? c = some v) : digit v = c := by
  obtain ⟨small,ascii⟩ := lt_of_value? read
  have same := digit_of_ascii c.toNat ascii v small
  rw [Char.ofNat_toNat] at same
  exact same read

/-! ### Writing and reading -/

theorem decode?_encode (bytes : List UInt8) : decode? (encode bytes) = some bytes := by
  induction bytes using encode.induct with
  | case1 => rfl
  | case2 a =>
    have high := value?_digit (a.toNat / 4) (by have := a.toNat_lt; omega)
    have low := value?_digit (a.toNat % 4 * 16) (by omega)
    have whole : (a.toNat / 4 * 4 + a.toNat % 4 * 16 / 16).toUInt8 = a := toUInt8_eq (by omega)
    have unused : a.toNat % 4 * 16 % 16 = 0 := by omega
    simp only [encode,decode?,high,low,Option.bind_eq_bind,Option.bind_some,if_pos unused,whole]
  | case3 a b =>
    have := b.toNat_lt
    have first := value?_digit (a.toNat / 4) (by have := a.toNat_lt; omega)
    have second := value?_digit (a.toNat % 4 * 16 + b.toNat / 16) (by omega)
    have third := value?_digit (b.toNat % 16 * 4) (by omega)
    have whole : (a.toNat / 4 * 4 + (a.toNat % 4 * 16 + b.toNat / 16) / 16).toUInt8 = a := toUInt8_eq (by omega)
    have whole' : ((a.toNat % 4 * 16 + b.toNat / 16) % 16 * 16 + b.toNat % 16 * 4 / 4).toUInt8 = b :=
      toUInt8_eq (by omega)
    have unused : b.toNat % 16 * 4 % 4 = 0 := by omega
    simp only [encode,decode?,first,second,third,Option.bind_eq_bind,Option.bind_some,if_pos unused,whole,whole']
  | case4 a b c rest ih =>
    have := b.toNat_lt
    have := c.toNat_lt
    have first := value?_digit (a.toNat / 4) (by have := a.toNat_lt; omega)
    have second := value?_digit (a.toNat % 4 * 16 + b.toNat / 16) (by omega)
    have third := value?_digit (b.toNat % 16 * 4 + c.toNat / 64) (by omega)
    have fourth := value?_digit (c.toNat % 64) (by omega)
    have whole : (a.toNat / 4 * 4 + (a.toNat % 4 * 16 + b.toNat / 16) / 16).toUInt8 = a := toUInt8_eq (by omega)
    have whole' : ((a.toNat % 4 * 16 + b.toNat / 16) % 16 * 16 + (b.toNat % 16 * 4 + c.toNat / 64) / 4).toUInt8 = b :=
      toUInt8_eq (by omega)
    have whole'' : ((b.toNat % 16 * 4 + c.toNat / 64) % 4 * 64 + c.toNat % 64).toUInt8 = c := toUInt8_eq (by omega)
    simp only [encode,decode?,first,second,third,fourth,ih,Option.bind_eq_bind,Option.bind_some,whole,whole',whole'']

/-- What is read is written again as it was: no other character, length or unused bit is let through. -/
theorem encode_of_decode? {text : List Char} {bytes : List UInt8} (read : decode? text = some bytes) :
    encode bytes = text := by
  induction text using decode?.induct generalizing bytes with
  | case1 =>
    cases read
    rfl
  | case2 => cases read
  | case3 c d =>
    simp only [decode?,Option.bind_eq_bind,Option.bind_eq_some_iff] at read
    obtain ⟨p,hp,q,hq,read⟩ := read
    obtain ⟨smallP,_⟩ := lt_of_value? hp
    obtain ⟨smallQ,_⟩ := lt_of_value? hq
    by_cases unused : q % 16 = 0
    · rw [if_pos unused] at read
      cases read
      have byte : (p * 4 + q / 16).toUInt8.toNat = p * 4 + q / 16 := toNat_toUInt8 (by omega)
      have first : (p * 4 + q / 16) / 4 = p := by omega
      have second : (p * 4 + q / 16) % 4 * 16 = q := by omega
      rw [encode,byte,first,second,digit_value? hp,digit_value? hq]
    · rw [if_neg unused] at read
      cases read
  | case4 c d e =>
    simp only [decode?,Option.bind_eq_bind,Option.bind_eq_some_iff] at read
    obtain ⟨p,hp,q,hq,r,hr,read⟩ := read
    obtain ⟨smallP,_⟩ := lt_of_value? hp
    obtain ⟨smallQ,_⟩ := lt_of_value? hq
    obtain ⟨smallR,_⟩ := lt_of_value? hr
    by_cases unused : r % 4 = 0
    · rw [if_pos unused] at read
      cases read
      have byte : (p * 4 + q / 16).toUInt8.toNat = p * 4 + q / 16 := toNat_toUInt8 (by omega)
      have byte' : (q % 16 * 16 + r / 4).toUInt8.toNat = q % 16 * 16 + r / 4 := toNat_toUInt8 (by omega)
      have first : (p * 4 + q / 16) / 4 = p := by omega
      have second : (p * 4 + q / 16) % 4 * 16 + (q % 16 * 16 + r / 4) / 16 = q := by omega
      have third : (q % 16 * 16 + r / 4) % 16 * 4 = r := by omega
      rw [encode,byte,byte',first,second,third,digit_value? hp,digit_value? hq,digit_value? hr]
    · rw [if_neg unused] at read
      cases read
  | case5 c d e f rest ih =>
    simp only [decode?,Option.bind_eq_bind,Option.bind_eq_some_iff] at read
    obtain ⟨p,hp,q,hq,r,hr,s,hs,bytes',tail,read⟩ := read
    obtain ⟨smallP,_⟩ := lt_of_value? hp
    obtain ⟨smallQ,_⟩ := lt_of_value? hq
    obtain ⟨smallR,_⟩ := lt_of_value? hr
    obtain ⟨smallS,_⟩ := lt_of_value? hs
    cases read
    have byte : (p * 4 + q / 16).toUInt8.toNat = p * 4 + q / 16 := toNat_toUInt8 (by omega)
    have byte' : (q % 16 * 16 + r / 4).toUInt8.toNat = q % 16 * 16 + r / 4 := toNat_toUInt8 (by omega)
    have byte'' : (r % 4 * 64 + s).toUInt8.toNat = r % 4 * 64 + s := toNat_toUInt8 (by omega)
    have first : (p * 4 + q / 16) / 4 = p := by omega
    have second : (p * 4 + q / 16) % 4 * 16 + (q % 16 * 16 + r / 4) / 16 = q := by omega
    have third : (q % 16 * 16 + r / 4) % 16 * 4 + (r % 4 * 64 + s) / 64 = r := by omega
    have fourth : (r % 4 * 64 + s) % 64 = s := by omega
    rw [encode,byte,byte',byte'',first,second,third,fourth,digit_value? hp,digit_value? hq,digit_value? hr,
      digit_value? hs,ih tail]

theorem decode?_eq_some_iff {text : List Char} {bytes : List UInt8} :
    decode? text = some bytes ↔ text = encode bytes :=
  ⟨fun read => (encode_of_decode? read).symm,fun written => written ▸ decode?_encode bytes⟩

theorem encode_injective {bytes bytes' : List UInt8} (same : encode bytes = encode bytes') : bytes = bytes' := by
  have read := decode?_encode bytes
  rw [same,decode?_encode] at read
  exact (Option.some.inj read).symm

theorem mem_alphabet_of_mem_encode {bytes : List UInt8} {c : Char} (member : c ∈ encode bytes) : c ∈ alphabet := by
  induction bytes using encode.induct with
  | case1 => cases member
  | case2 a =>
    have := a.toNat_lt
    simp only [encode,List.mem_cons,List.not_mem_nil,or_false] at member
    rcases member with rfl | rfl <;> exact digit_mem_alphabet (by omega)
  | case3 a b =>
    have := a.toNat_lt
    have := b.toNat_lt
    simp only [encode,List.mem_cons,List.not_mem_nil,or_false] at member
    rcases member with rfl | rfl | rfl <;> exact digit_mem_alphabet (by omega)
  | case4 a b c rest ih =>
    have := a.toNat_lt
    have := b.toNat_lt
    have := c.toNat_lt
    simp only [encode,List.mem_cons] at member
    rcases member with rfl | rfl | rfl | rfl | member
    · exact digit_mem_alphabet (by omega)
    · exact digit_mem_alphabet (by omega)
    · exact digit_mem_alphabet (by omega)
    · exact digit_mem_alphabet (by omega)
    · exact ih member

/-! ### Six bits a character -/

/-- The bits of a number, the highest first. -/
def bits : Nat → Nat → List Bool
  | 0, _ => []
  | width + 1, n => bits width (n / 2) ++ [decide (n % 2 = 1)]

theorem length_bits (width n : Nat) : (bits width n).length = width := by
  induction width generalizing n with
  | zero => rfl
  | succ width ih => rw [bits,List.length_append,ih,List.length_singleton]

theorem bits_add (high low : Nat) {x y : Nat} (small : y < 2 ^ low) :
    bits (high + low) (x * 2 ^ low + y) = bits high x ++ bits low y := by
  induction low generalizing y with
  | zero =>
    have none : y = 0 := by omega
    simp [none,bits]
  | succ low ih =>
    have double : x * 2 ^ (low + 1) = x * 2 ^ low * 2 := by rw [Nat.pow_succ,Nat.mul_assoc]
    have half : (x * 2 ^ (low + 1) + y) / 2 = x * 2 ^ low + y / 2 := by omega
    have last : (x * 2 ^ (low + 1) + y) % 2 = y % 2 := by omega
    rw [← Nat.add_assoc,bits,half,last,ih (by omega),bits,List.append_assoc]

theorem bits_zero (width : Nat) : bits width 0 = List.replicate width false := by
  induction width with
  | zero => rfl
  | succ width ih =>
    rw [bits,Nat.zero_div,ih,List.replicate_succ']
    rfl

theorem bits_two_four {x y : Nat} (small : y < 16) : bits 6 (x * 16 + y) = bits 2 x ++ bits 4 y :=
  bits_add 2 4 small

theorem bits_four_two {x y : Nat} (small : y < 4) : bits 6 (x * 4 + y) = bits 4 x ++ bits 2 y :=
  bits_add 4 2 small

theorem bits_six_two (n : Nat) : bits 8 n = bits 6 (n / 4) ++ bits 2 (n % 4) := by
  have whole : bits 8 (n / 4 * 4 + n % 4) = bits 6 (n / 4) ++ bits 2 (n % 4) := bits_add 6 2 (by omega)
  rwa [Nat.div_add_mod'] at whole

theorem bits_four_four (n : Nat) : bits 8 n = bits 4 (n / 16) ++ bits 4 (n % 16) := by
  have whole : bits 8 (n / 16 * 16 + n % 16) = bits 4 (n / 16) ++ bits 4 (n % 16) := bits_add 4 4 (by omega)
  rwa [Nat.div_add_mod'] at whole

theorem bits_two_six (n : Nat) : bits 8 n = bits 2 (n / 64) ++ bits 6 (n % 64) := by
  have whole : bits 8 (n / 64 * 64 + n % 64) = bits 2 (n / 64) ++ bits 6 (n % 64) := bits_add 2 6 (by omega)
  rwa [Nat.div_add_mod'] at whole

/-- The number of some bits, the highest first. -/
def ofBits : List Bool → Nat := List.foldl (fun n b => n * 2 + b.toNat) 0

theorem ofBits_bits (width : Nat) {n : Nat} (small : n < 2 ^ width) : ofBits (bits width n) = n := by
  induction width generalizing n with
  | zero => simp only [Nat.pow_zero,Nat.lt_one_iff] at small; rw [small]; rfl
  | succ width ih =>
    have half := ih (n := n / 2) (by omega)
    rw [ofBits] at half ⊢
    rw [bits,List.foldl_append,half]
    rcases Nat.mod_two_eq_zero_or_one n with last | last
    all_goals
      simp [last]
      omega

/-- The text of some bytes by the rule of the format: their bits, filled up with fewer than six zeros, are those of
    the values of its characters. -/
def Spells (text : List Char) (bytes : List UInt8) : Prop :=
  ∃ values : List Nat, values.map (alphabet[·]?) = text.map some ∧
    ∃ zeros < 6, values.flatMap (bits 6) = bytes.flatMap (fun b => bits 8 b.toNat) ++ List.replicate zeros false

theorem spells_encode (bytes : List UInt8) : Spells (encode bytes) bytes := by
  induction bytes using encode.induct with
  | case1 => exact ⟨[],rfl,0,by omega,rfl⟩
  | case2 a =>
    have := a.toNat_lt
    have last : bits 6 (a.toNat % 4 * 16) = bits 2 (a.toNat % 4) ++ List.replicate 4 false := by
      rw [← bits_zero,← bits_two_four (by omega),Nat.add_zero]
    refine ⟨[a.toNat / 4,a.toNat % 4 * 16],?_,4,by omega,?_⟩
    · simp only [encode,List.map_cons,List.map_nil,getElem?_alphabet (a.toNat / 4) (by omega),
        getElem?_alphabet (a.toNat % 4 * 16) (by omega)]
    · simp only [List.flatMap_cons,List.flatMap_nil,List.append_nil,List.append_assoc,last,bits_six_two a.toNat]
  | case3 a b =>
    have := a.toNat_lt
    have := b.toNat_lt
    have middle : bits 6 (a.toNat % 4 * 16 + b.toNat / 16) = bits 2 (a.toNat % 4) ++ bits 4 (b.toNat / 16) :=
      bits_two_four (by omega)
    have last : bits 6 (b.toNat % 16 * 4) = bits 4 (b.toNat % 16) ++ List.replicate 2 false := by
      rw [← bits_zero,← bits_four_two (by omega),Nat.add_zero]
    refine ⟨[a.toNat / 4,a.toNat % 4 * 16 + b.toNat / 16,b.toNat % 16 * 4],?_,2,by omega,?_⟩
    · simp only [encode,List.map_cons,List.map_nil,getElem?_alphabet (a.toNat / 4) (by omega),
        getElem?_alphabet (a.toNat % 4 * 16 + b.toNat / 16) (by omega),getElem?_alphabet (b.toNat % 16 * 4) (by omega)]
    · simp only [List.flatMap_cons,List.flatMap_nil,List.append_nil,List.append_assoc,middle,last,
        bits_six_two a.toNat,bits_four_four b.toNat]
  | case4 a b c rest ih =>
    have := a.toNat_lt
    have := b.toNat_lt
    have := c.toNat_lt
    obtain ⟨values,written,zeros,few,filled⟩ := ih
    have second : bits 6 (a.toNat % 4 * 16 + b.toNat / 16) = bits 2 (a.toNat % 4) ++ bits 4 (b.toNat / 16) :=
      bits_two_four (by omega)
    have third : bits 6 (b.toNat % 16 * 4 + c.toNat / 64) = bits 4 (b.toNat % 16) ++ bits 2 (c.toNat / 64) :=
      bits_four_two (by omega)
    refine ⟨a.toNat / 4 :: (a.toNat % 4 * 16 + b.toNat / 16) :: (b.toNat % 16 * 4 + c.toNat / 64) :: c.toNat % 64 ::
      values,?_,zeros,few,?_⟩
    · simp only [encode,List.map_cons,written,getElem?_alphabet (a.toNat / 4) (by omega),
        getElem?_alphabet (a.toNat % 4 * 16 + b.toNat / 16) (by omega),
        getElem?_alphabet (b.toNat % 16 * 4 + c.toNat / 64) (by omega),getElem?_alphabet (c.toNat % 64) (by omega)]
    · simp only [List.flatMap_cons,List.append_assoc,filled,second,third,bits_six_two a.toNat,
        bits_four_four b.toNat,bits_two_six c.toNat]

theorem length_flatMap_bits {α : Type} (width : Nat) (f : α → Nat) (l : List α) :
    (l.flatMap fun x => bits width (f x)).length = width * l.length := by
  induction l with
  | nil => rfl
  | cons x l ih => rw [List.flatMap_cons,List.length_append,length_bits,ih,List.length_cons,Nat.mul_succ,Nat.add_comm]

/-- The values are read off their bits six at a time, so no two lists of values have the same bits. -/
theorem values_of_bits {values values' : List Nat} (small : ∀ v ∈ values, v < 64) (small' : ∀ v ∈ values', v < 64)
    (same : values.flatMap (bits 6) = values'.flatMap (bits 6)) : values = values' := by
  induction values generalizing values' with
  | nil =>
    cases values' with
    | nil => rfl
    | cons v' rest' =>
      have length := congrArg List.length same
      simp only [length_flatMap_bits 6 (fun v => v),List.length_cons,List.length_nil] at length
      omega
  | cons v rest ih =>
    cases values' with
    | nil =>
      have length := congrArg List.length same
      simp only [length_flatMap_bits 6 (fun v => v),List.length_cons,List.length_nil] at length
      omega
    | cons v' rest' =>
      simp only [List.flatMap_cons] at same
      obtain ⟨first,others⟩ := List.append_inj same (by rw [length_bits,length_bits])
      have read := congrArg ofBits first
      rw [ofBits_bits 6 (small v (.head _)),ofBits_bits 6 (small' v' (.head _))] at read
      rw [read,ih (fun w member => small w (.tail _ member)) (fun w member => small' w (.tail _ member)) others]

theorem lt_of_written {values : List Nat} {text : List Char} (written : values.map (alphabet[·]?) = text.map some) :
    ∀ v ∈ values, v < 64 := by
  intro v member
  have found : alphabet[v]? ∈ text.map some := written ▸ List.mem_map_of_mem member
  obtain ⟨c,_,read⟩ := List.mem_map.mp found
  exact (List.getElem?_eq_some_iff.mp read.symm).1

theorem spells_iff {text : List Char} {bytes : List UInt8} : Spells text bytes ↔ text = encode bytes := by
  constructor
  · rintro ⟨values,written,zeros,few,filled⟩
    obtain ⟨values',written',zeros',few',filled'⟩ := spells_encode bytes
    have length := congrArg List.length filled
    have length' := congrArg List.length filled'
    simp only [List.length_append,List.length_replicate,length_flatMap_bits 6 (fun v => v),
      length_flatMap_bits 8 UInt8.toNat] at length length'
    -- Six bits for each value and eight for each byte leave one choice for fewer than six zeros.
    have same : zeros = zeros' := by omega
    rw [same,← filled'] at filled
    have values_eq := values_of_bits (lt_of_written written) (lt_of_written written') filled
    rw [values_eq,written'] at written
    exact (List.map_inj_right fun _ _ => Option.some.inj).mp written.symm
  · rintro rfl
    exact spells_encode bytes

end Playout.Text.Base64Url
