import Mathlib.Data.List.Chain
import Mathlib.Data.List.TakeDrop
import Playout.Json.Token
import Playout.Proofs.Text.Utf8

/-!
What the tokens of a text are: each token has its written forms (`Token.Writes`), they stand one after another with
spaces anywhere between (`Laid`), and such a text has these tokens and no others (`tokens?_of_laid`).
-/
namespace Playout.Json
open Playout.Text

/-! ### Strings -/

/-- The forms of a character in a string: itself, or an escape of one letter, of one unit or of two. -/
inductive WritesChar (c : Char) : List UInt8 → Prop
  | plain (free : c ≠ '"' ∧ c ≠ '\\' ∧ 0x20 ≤ c.toNat) : WritesChar c (Utf8.encodeChar c)
  | letter {e b : UInt8} (read : escape? e = some b) (same : b.toNat = c.toNat) : WritesChar c [0x5C,e]
  | unit {w x y z : UInt8} (read : unit? w x y z = some c.toNat) : WritesChar c [0x5C,0x75,w,x,y,z]
  | pair {w x y z w' x' y' z' : UInt8} {high low : Nat} (first : unit? w x y z = some high)
      (second : unit? w' x' y' z' = some low) (high_bounds : 0xD800 ≤ high ∧ high < 0xDC00)
      (low_bounds : 0xDC00 ≤ low ∧ low < 0xE000)
      (same : 0x10000 + (high - 0xD800) * 0x400 + (low - 0xDC00) = c.toNat) :
      WritesChar c [0x5C,0x75,w,x,y,z,0x5C,0x75,w',x',y',z']

inductive WritesText : List Char → List UInt8 → Prop
  | nil : WritesText [] []
  | cons {c : Char} {s : List Char} {bytes bytes' : List UInt8} (first : WritesChar c bytes)
      (others : WritesText s bytes') : WritesText (c :: s) (bytes ++ bytes')

/-- Some bytes of a string are lexed as pieces that denote a character, whatever stands after them. -/
structure LexesChar (c : Char) (bytes : List UInt8) (pieces : List Piece) : Prop where
  lexed : ∀ rest, lexString (bytes ++ rest) = (lexString rest).map fun read => (pieces ++ read.1,read.2)
  denoted : ∀ more, Piece.bytes? (pieces ++ more) = (Piece.bytes? more).map (Utf8.encodeChar c ++ ·)

theorem lexString_byte {b : UInt8} (free : b ≠ 0x22 ∧ b ≠ 0x5C ∧ ¬ b < 0x20) (rest : List UInt8) :
    lexString (b :: rest) = (lexString rest).map fun read => (.byte b :: read.1,read.2) := by
  rw [lexString.eq_5 b rest free.1 (fun _ _ _ _ _ slash => (free.2.1 slash).elim)
    (fun _ _ slash => (free.2.1 slash).elim),if_neg (by simp [free])]
  cases lexString rest <;> rfl

theorem lexString_bytes {bytes : List UInt8} (free : ∀ b ∈ bytes, b ≠ 0x22 ∧ b ≠ 0x5C ∧ ¬ b < 0x20)
    (rest : List UInt8) :
    lexString (bytes ++ rest) = (lexString rest).map fun read => (bytes.map .byte ++ read.1,read.2) := by
  induction bytes with
  | nil => exact (Option.map_id' (x := lexString rest)).symm
  | cons b bytes ih =>
    rw [List.cons_append,lexString_byte (free b (.head _)),ih (fun b' member => free b' (.tail _ member))]
    cases lexString rest <;> rfl

theorem bytes?_bytes (bytes : List UInt8) (more : List Piece) :
    Piece.bytes? (bytes.map .byte ++ more) = (Piece.bytes? more).map (bytes ++ ·) := by
  induction bytes with
  | nil => exact (Option.map_id' (x := Piece.bytes? more)).symm
  | cons b bytes ih =>
    rw [List.map_cons,List.cons_append,Piece.bytes?,ih]
    cases Piece.bytes? more <;> rfl

theorem bytes?_unit {n : Nat} (scalar : ¬ (0xD800 ≤ n ∧ n < 0xE000)) (more : List Piece) :
    Piece.bytes? (.unit n :: more) = (Piece.bytes? more).map (Utf8.encodeChar (Char.ofNat n) ++ ·) := by
  have notHigh : ¬ (0xD800 ≤ n ∧ n < 0xDC00) := by omega
  have notLow : ¬ (0xDC00 ≤ n ∧ n < 0xE000) := by omega
  rw [Piece.bytes?.eq_def (.unit n :: more)]
  simp only [if_neg notHigh,if_neg notLow]

/-- The bytes of a character that needs no escape are neither quotes nor backslashes nor controls. -/
theorem free_of_mem_encodeChar {c : Char} (free : c ≠ '"' ∧ c ≠ '\\' ∧ 0x20 ≤ c.toNat) {b : UInt8}
    (member : b ∈ Utf8.encodeChar c) : b ≠ 0x22 ∧ b ≠ 0x5C ∧ ¬ b < 0x20 := by
  obtain ⟨quote,slash,control⟩ := free
  rw [UInt8.lt_iff_toNat_lt]
  rcases Utf8.toNat_of_mem_encodeChar member with ⟨same,_⟩ | high
  · refine ⟨?_,?_,?_⟩
    · rintro rfl
      exact quote (Char.toNat_inj.mp same.symm)
    · rintro rfl
      exact slash (Char.toNat_inj.mp same.symm)
    · exact not_lt.mpr (same ▸ control)
  · refine ⟨?_,?_,?_⟩
    · rintro rfl
      exact absurd high (by decide)
    · rintro rfl
      exact absurd high (by decide)
    · exact not_lt.mpr (le_trans (by decide) high)

theorem ascii_of_escape? {e b : UInt8} (read : escape? e = some b) : b.toNat < 0x80 := by
  unfold escape? at read
  split at read <;> cases read <;> decide

theorem lexesChar_of_writes {c : Char} {bytes : List UInt8} (written : WritesChar c bytes) :
    ∃ pieces, LexesChar c bytes pieces := by
  cases written with
  | plain free =>
    exact ⟨(Utf8.encodeChar c).map .byte,lexString_bytes fun b member => free_of_mem_encodeChar free member,
      bytes?_bytes _⟩
  | @letter e b read same => 
    have ascii : Utf8.encodeChar c = [b] := by
      rw [Utf8.encodeChar_one (same ▸ ascii_of_escape? read),toUInt8_eq same.symm]
    refine ⟨[.byte b],fun rest => ?_,fun more => ?_⟩
    · have notUnit : e ≠ 0x75 := by
        rintro rfl
        cases read
      rw [List.cons_append,List.cons_append,List.nil_append,lexString.eq_4 _ _ fun _ _ _ _ _ unit => (notUnit unit).elim,read]
      cases lexString rest <;> rfl
    · rw [ascii]
      rfl
  | @unit w x y z read =>
    refine ⟨[.unit c.toNat],fun rest => ?_,fun more => ?_⟩
    · simp only [List.cons_append,List.nil_append,lexString.eq_3,read]
      cases lexString rest <;> rfl
    · have valid := Utf8.toNat_valid c
      rw [List.cons_append,List.nil_append,bytes?_unit (by omega),Char.ofNat_toNat]
  | @pair w x y z w' x' y' z' high low first second high_bounds low_bounds same =>
    refine ⟨[.unit high,.unit low],fun rest => ?_,fun more => ?_⟩
    · simp only [List.cons_append,List.nil_append,lexString.eq_3,first,second]
      cases lexString rest <;> rfl
    · simp only [List.cons_append,List.nil_append,Piece.bytes?.eq_3,if_pos high_bounds,if_pos low_bounds,same,
        Char.ofNat_toNat]

theorem lexString_of_writes {s : List Char} {bytes : List UInt8} (written : WritesText s bytes) (rest : List UInt8) :
    ∃ pieces, lexString (bytes ++ 0x22 :: rest) = some (pieces,rest) ∧ Piece.text? pieces = some s := by
  suffices bytes? : ∃ pieces, lexString (bytes ++ 0x22 :: rest) = some (pieces,rest) ∧
      Piece.bytes? pieces = some (Utf8.encode s) by
    obtain ⟨pieces,lexed,denoted⟩ := bytes?
    exact ⟨pieces,lexed,by rw [Piece.text?,denoted]; exact Utf8.decode?_encode s⟩
  induction written with
  | nil => exact ⟨[],rfl,rfl⟩
  | @cons c s bytes bytes' first others ih =>
    obtain ⟨pieces,char⟩ := lexesChar_of_writes first
    obtain ⟨more,lexed,denoted⟩ := ih
    refine ⟨pieces ++ more,?_,?_⟩
    · rw [List.append_assoc,char.lexed,lexed]
      rfl
    · rw [char.denoted,denoted,Utf8.encode_cons]
      rfl

/-! ### Numbers -/

/-- One or more digits. -/
structure IsDigits (ds : List UInt8) : Prop where
  some_digit : ds ≠ []
  only_digits : ∀ b ∈ ds, isDigit b

def IsWhole (ds : List UInt8) : Prop := ds = [0x30] ∨ IsDigits ds ∧ ds.head? ≠ some 0x30

def IsFraction (s : List UInt8) : Prop := s = [] ∨ ∃ ds, IsDigits ds ∧ s = 0x2E :: ds

def IsExponent (s : List UInt8) : Prop :=
  s = [] ∨ ∃ e sign ds, (e = 0x65 ∨ e = 0x45) ∧ sign ∈ [[],[0x2B],[0x2D]] ∧ IsDigits ds ∧ s = e :: (sign ++ ds)

/-- The grammar of numbers. -/
inductive IsNumber : List UInt8 → Prop
  | intro {sign whole fraction exponent : List UInt8} (minus : sign ∈ [[],[0x2D]]) (before : IsWhole whole)
      (after : IsFraction fraction) (scale : IsExponent exponent) :
      IsNumber (sign ++ (whole ++ (fraction ++ exponent)))

/-- Whether a number that is followed by these bytes ends before them. -/
def Stops (rest : List UInt8) : Prop :=
  ∀ b ∈ rest.head?, isDigit b = false ∧ b ≠ 0x2E ∧ b ≠ 0x65 ∧ b ≠ 0x45

theorem lexDigits?_append {ds : List UInt8} (digits : IsDigits ds) {rest : List UInt8}
    (stop : ∀ b ∈ rest.head?, isDigit b = false) : lexDigits? (ds ++ rest) = some (ds,rest) := by
  have split : (ds ++ rest).span isDigit = (ds,rest) := by
    rw [List.span_eq_takeWhile_dropWhile,List.takeWhile_append_of_pos digits.only_digits,
      List.dropWhile_append_of_pos digits.only_digits]
    rcases rest with _ | ⟨b,rest⟩
    · simp
    · simp [stop b rfl]
  unfold lexDigits?
  rw [split]
  rcases ds with _ | ⟨d,ds⟩
  · exact absurd rfl digits.some_digit
  · rfl

theorem lexWhole?_append {ds : List UInt8} (whole : IsWhole ds) {rest : List UInt8}
    (stop : ∀ b ∈ rest.head?, isDigit b = false) : lexWhole? (ds ++ rest) = some (ds,rest) := by
  rcases whole with rfl | ⟨digits,first⟩
  · rfl
  · rcases ds with _ | ⟨d,ds⟩
    · exact absurd rfl digits.some_digit
    rw [← lexDigits?_append digits stop]
    unfold lexWhole?
    split
    · rename_i zero
      cases zero
      exact absurd rfl first
    · rfl

theorem lexFraction?_append {s : List UInt8} (fraction : IsFraction s) {rest : List UInt8}
    (stop : ∀ b ∈ rest.head?, isDigit b = false ∧ b ≠ 0x2E) : lexFraction? (s ++ rest) = some (s,rest) := by
  rcases fraction with rfl | ⟨ds,digits,rfl⟩
  · unfold lexFraction?
    split
    · rename_i point
      exact absurd rfl (stop 0x2E (by rw [← List.nil_append rest,point]; rfl)).2
    · rfl
  · rw [List.cons_append,lexFraction?,lexDigits?_append digits fun b member => (stop b member).1]
    rfl

theorem lexExponent?_append {s : List UInt8} (exponent : IsExponent s) {rest : List UInt8} (stop : Stops rest) :
    lexExponent? (s ++ rest) = some (s,rest) := by
  rcases exponent with rfl | ⟨e,sign,ds,letter,sign_mem,digits,rfl⟩
  · rcases rest with _ | ⟨b,rest⟩
    · rfl
    · obtain ⟨_,_,small,large⟩ := stop b rfl
      rw [List.nil_append,lexExponent?.eq_def]
      simp only [small,large,or_self,if_false]
  · have read := lexDigits?_append digits fun b member => (stop b member).1
    simp only [List.mem_cons,List.not_mem_nil,or_false] at sign_mem
    rw [List.cons_append,lexExponent?.eq_def]
    simp only [letter,if_true]
    rcases sign_mem with rfl | rfl | rfl
    · obtain ⟨d,ds,rfl⟩ := List.exists_cons_of_ne_nil digits.some_digit
      have notSign : ¬ (d = 0x2B ∨ d = 0x2D) := by
        rintro (rfl | rfl) <;> exact absurd (digits.only_digits _ (.head _)) (by decide)
      rw [List.cons_append] at read
      simp only [List.nil_append,List.cons_append,if_neg notSign,read,Option.map_some]
    all_goals simp only [List.nil_append,List.cons_append,true_or,or_true,if_true,read,Option.map_some]

/-- A sequence of digits is not followed by one, and a fraction not by a point. -/
theorem IsExponent.stops {s : List UInt8} (exponent : IsExponent s) {rest : List UInt8} (stop : Stops rest) :
    ∀ b ∈ (s ++ rest).head?, isDigit b = false ∧ b ≠ 0x2E := by
  rcases exponent with rfl | ⟨e,sign,ds,letter,_,_,rfl⟩
  · exact fun b member => ⟨(stop b member).1,(stop b member).2.1⟩
  · rintro b ⟨⟩
    rcases letter with rfl | rfl <;> decide

theorem IsFraction.stops {s : List UInt8} (fraction : IsFraction s) {rest : List UInt8}
    (stop : ∀ b ∈ rest.head?, isDigit b = false) : ∀ b ∈ (s ++ rest).head?, isDigit b = false := by
  rcases fraction with rfl | ⟨ds,_,rfl⟩
  · exact stop
  · rintro b ⟨⟩
    rfl

theorem IsWhole.eq_cons {ds : List UInt8} (whole : IsWhole ds) : ∃ d tail, ds = d :: tail ∧ isDigit d = true := by
  rcases whole with rfl | ⟨digits,_⟩
  · exact ⟨0x30,[],rfl,rfl⟩
  · obtain ⟨d,tail,rfl⟩ := List.exists_cons_of_ne_nil digits.some_digit
    exact ⟨d,tail,rfl,digits.only_digits d (.head _)⟩

theorem IsNumber.eq_cons {s : List UInt8} (number : IsNumber s) :
    ∃ b tail, s = b :: tail ∧ (b = 0x2D ∨ isDigit b = true) := by
  obtain ⟨minus,before,_,_⟩ := number
  simp only [List.mem_cons,List.not_mem_nil,or_false] at minus
  rcases minus with rfl | rfl
  · obtain ⟨d,tail,rfl,digit⟩ := before.eq_cons
    exact ⟨d,_,rfl,.inr digit⟩
  · exact ⟨0x2D,_,rfl,.inl rfl⟩

theorem ascii_of_isDigit {b : UInt8} (digit : isDigit b = true) : b.toNat < 0x80 := by
  simp only [isDigit,Bool.and_eq_true,decide_eq_true_eq,UInt8.le_iff_toNat_le] at digit
  exact lt_of_le_of_lt digit.2 (by decide)

theorem IsDigits.ascii {ds : List UInt8} (digits : IsDigits ds) : ∀ b ∈ ds, b.toNat < 0x80 :=
  fun b member => ascii_of_isDigit (digits.only_digits b member)

theorem IsNumber.ascii {s : List UInt8} (number : IsNumber s) : ∀ b ∈ s, b.toNat < 0x80 := by
  obtain ⟨minus,before,after,scale⟩ := number
  simp only [List.mem_cons,List.not_mem_nil,or_false] at minus
  intro b member
  simp only [List.mem_append] at member
  rcases member with member | member | member | member
  · rcases minus with rfl | rfl
    · cases member
    · rw [List.mem_singleton.mp member]
      decide
  · rcases before with rfl | ⟨digits,_⟩
    · rw [List.mem_singleton.mp member]
      decide
    · exact digits.ascii b member
  · rcases after with rfl | ⟨ds,digits,rfl⟩
    · cases member
    · rcases List.mem_cons.mp member with rfl | member
      · decide
      · exact digits.ascii b member
  · rcases scale with rfl | ⟨e,sign,ds,letter,sign_mem,digits,rfl⟩
    · cases member
    · simp only [List.mem_cons,List.not_mem_nil,or_false] at sign_mem
      rcases List.mem_cons.mp member with rfl | member
      · rcases letter with rfl | rfl <;> decide
      rcases List.mem_append.mp member with member | member
      · rcases sign_mem with rfl | rfl | rfl
        · cases member
        · rw [List.mem_singleton.mp member]
          decide
        · rw [List.mem_singleton.mp member]
          decide
      · exact digits.ascii b member

theorem lexNumber?_append {s : List UInt8} (number : IsNumber s) {rest : List UInt8} (stop : Stops rest) :
    lexNumber? (s ++ rest) = some (s,rest) := by
  obtain @⟨sign,whole,fraction,exponent,minus,before,after,scale⟩ := number
  have unsigned : lexUnsigned? (whole ++ (fraction ++ exponent) ++ rest) = some (whole ++ (fraction ++ exponent),rest) := by
    have noPoint := scale.stops stop
    have noDigit := after.stops fun b member => (noPoint b member).1
    simp only [lexUnsigned?,List.append_assoc,lexWhole?_append before noDigit,lexFraction?_append after noPoint,
      lexExponent?_append scale stop,Option.bind_eq_bind,Option.bind_some]
  simp only [List.mem_cons,List.not_mem_nil,or_false] at minus
  rcases minus with rfl | rfl
  · obtain ⟨d,tail,rfl,digit⟩ := before.eq_cons
    rw [List.nil_append,← unsigned]
    unfold lexNumber?
    split
    · rename_i begins
      cases begins
      cases digit
    · rfl
  · rw [List.cons_append,List.cons_append,lexNumber?,List.nil_append,unsigned]
    rfl

/-! ### Tokens -/

def Token.IsNumber : Token → Prop
  | .number _ => True
  | _ => False

/-- The written forms of a token. A string of unknown text has none. -/
inductive Token.Writes : Token → List UInt8 → Prop
  | openObject : Writes .openObject [0x7B]
  | closeObject : Writes .closeObject [0x7D]
  | openArray : Writes .openArray [0x5B]
  | closeArray : Writes .closeArray [0x5D]
  | comma : Writes .comma [0x2C]
  | colon : Writes .colon [0x3A]
  | null : Writes .null [0x6E,0x75,0x6C,0x6C]
  | true : Writes (.bool true) [0x74,0x72,0x75,0x65]
  | false : Writes (.bool false) [0x66,0x61,0x6C,0x73,0x65]
  | number {digits : List UInt8} (grammar : Json.IsNumber digits) :
      Writes (.number (digits.map fun d => Char.ofNat d.toNat)) digits
  | string {s : List Char} {bytes : List UInt8} (characters : WritesText s bytes) :
      Writes (.string (some s)) (0x22 :: (bytes ++ [0x22]))

/-- A number begins with a sign or a digit, which begin no other token and are no space. -/
theorem notSpecial_of_begins : ∀ b : UInt8, b = 0x2D ∨ isDigit b = true →
    Char.ofNat b.toNat ∉ ['\x7b','\x7d','[',']',',',':','"','n','t','f'] := forall_byte (by decide +kernel)

theorem notSpace_of_begins : ∀ b : UInt8, b = 0x2D ∨ isDigit b = true → isSpace b = false :=
  forall_byte (by decide +kernel)

theorem lexToken?_number {b : UInt8} (first : b = 0x2D ∨ isDigit b = true) (rest : List UInt8) :
    lexToken? b rest = (lexNumber? (b :: rest)).map fun read =>
      (.number (read.1.map fun d => Char.ofNat d.toNat),read.2) := by
  have other := notSpecial_of_begins b first
  simp only [List.mem_cons,List.not_mem_nil,or_false,not_or] at other
  unfold lexToken?
  split <;> first | rfl | simp_all

theorem lexToken?_of_writes {token : Token} {bytes rest : List UInt8} (written : token.Writes bytes)
    (stop : token.IsNumber → Stops rest) :
    ∃ b tail, bytes = b :: tail ∧ isSpace b = false ∧ lexToken? b (tail ++ rest) = some (token,rest) := by
  cases written with
  | number grammar =>
    obtain ⟨b,tail,rfl,first⟩ := grammar.eq_cons
    refine ⟨b,tail,rfl,notSpace_of_begins b first,?_⟩
    rw [lexToken?_number first,← List.cons_append,lexNumber?_append grammar (stop trivial)]
    rfl
  | string characters =>
    obtain ⟨pieces,lexed,denoted⟩ := lexString_of_writes characters rest
    refine ⟨0x22,_,rfl,rfl,?_⟩
    rw [List.append_assoc]
    change (lexString (_ ++ 0x22 :: rest)).map _ = _
    rw [lexed,← denoted]
    rfl
  | _ => exact ⟨_,_,rfl,rfl,rfl⟩

/-! ### Texts -/

/-- A text of the given tokens, with spaces anywhere around them. -/
inductive Laid : List Token → List UInt8 → Prop
  | nil : Laid [] []
  | space {tokens : List Token} {b : UInt8} {s : List UInt8} (free : isSpace b = true) (others : Laid tokens s) :
      Laid tokens (b :: s)
  | token {token : Token} {tokens : List Token} {bytes s : List UInt8} (written : token.Writes bytes)
      (others : Laid tokens s) : Laid (token :: tokens) (bytes ++ s)

/-- No number comes right after another, so that none is read on into the next. -/
def Separated (tokens : List Token) : Prop := tokens.IsChain fun t t' => ¬ (t.IsNumber ∧ t'.IsNumber)

theorem notContinued_of_space : ∀ b : UInt8, isSpace b = true →
    isDigit b = false ∧ b ≠ 0x2E ∧ b ≠ 0x65 ∧ b ≠ 0x45 := forall_byte (by decide +kernel)

theorem stops_of_space {b : UInt8} (space : isSpace b = true) (rest : List UInt8) : Stops (b :: rest) := by
  rintro _ ⟨⟩
  exact notContinued_of_space b space

theorem stops_of_laid {tokens : List Token} {s : List UInt8} (laid : Laid tokens s)
    (other : ∀ t ∈ tokens.head?, ¬ t.IsNumber) : Stops s := by
  cases laid with
  | nil => nofun
  | space free others => exact stops_of_space free _
  | token written others =>
    cases written with
    | number grammar => exact absurd trivial (other _ rfl)
    | _ => rintro b ⟨⟩; exact ⟨rfl,by decide,by decide,by decide⟩

theorem lexAll_of_laid {tokens : List Token} {s : List UInt8} (laid : Laid tokens s) (separated : Separated tokens)
    {fuel : Nat} (enough : s.length ≤ fuel) (done : List Token) : lexAll fuel done s = some (done.reverse ++ tokens) := by
  -- On the layout, while fuel and finished tokens change: a space takes one byte, a token all of its own.
  induction laid generalizing fuel done with
  | nil => cases fuel <;> simp [lexAll]
  | space free others ih =>
    obtain ⟨fuel,rfl⟩ := Nat.exists_eq_add_one_of_ne_zero (n := fuel) (by rw [List.length_cons] at enough; omega)
    rw [lexAll,if_pos free]
    exact ih separated (by rw [List.length_cons] at enough; omega) done
  | @token token tokens bytes s written others ih =>
    obtain ⟨apart,separated⟩ := List.isChain_cons.mp separated
    -- A number ends where it should because what follows it begins with a space or another kind of token.
    have stop : token.IsNumber → Stops s := fun number =>
      stops_of_laid others fun t member both => apart t member ⟨number,both⟩
    obtain ⟨b,tail,rfl,visible,lexed⟩ := lexToken?_of_writes written stop
    simp only [List.cons_append,List.length_cons,List.length_append] at enough
    obtain ⟨fuel,rfl⟩ := Nat.exists_eq_add_one_of_ne_zero (n := fuel) (by omega)
    rw [List.cons_append,lexAll,if_neg (by simp [visible]),lexed]
    simp only
    rw [ih separated (by omega),List.reverse_cons,List.append_assoc]
    rfl

theorem tokens?_of_laid {tokens : List Token} {s : List UInt8} (laid : Laid tokens s) (separated : Separated tokens) :
    tokens? s = some tokens := lexAll_of_laid laid separated le_rfl []

end Playout.Json
