import Playout.Json.Reader
import Playout.Proofs.Json.Token

/-!
A value is read from every text of its tokens (`read?_of_laid`); what `Json.render` writes is such a text
(`read?_render`).
-/
namespace Playout.Json
open Playout.Text

/-- To show something of every value it is shown of an array or object when it holds of what is in there. -/
theorem nested {P : Json → Prop} (null : P .null) (bool : ∀ b, P (.bool b)) (number : ∀ text, P (.number text))
    (string : ∀ text, P (.string text)) (array : ∀ items, (∀ j ∈ items, P j) → P (.array items))
    (object : ∀ members, (∀ m ∈ members, P m.2) → P (.object members)) (j : Json) : P j := by
  refine @Json.rec P (fun items => ∀ j ∈ items, P j) (fun members => ∀ m ∈ members, P m.2) (fun m => P m.2)
    null bool number string array object ?no_item ?item ?no_member ?member (fun _ _ ih => ih) j
  case no_item => nofun
  case item => exact fun _ _ first others => List.forall_mem_cons.mpr ⟨first,others⟩
  case no_member => nofun
  case member => exact fun _ _ first others => List.forall_mem_cons.mpr ⟨first,others⟩

/-! ### The tokens of a value -/

mutual
def tokens : Json → List Token
  | .null => [.null]
  | .bool b => [.bool b]
  | .number text => [.number text]
  | .string s => [.string s]
  | .array items => .openArray :: (itemTokens items ++ [.closeArray])
  | .object members => .openObject :: (memberTokens members ++ [.closeObject])

def itemTokens : List Json → List Token
  | [] => []
  | [item] => tokens item
  | item :: items => tokens item ++ .comma :: itemTokens items

def memberTokens : List (Option (List Char) × Json) → List Token
  | [] => []
  | [(key,value)] => .string key :: .colon :: tokens value
  | (key,value) :: members => .string key :: .colon :: (tokens value ++ .comma :: memberTokens members)
end

/-- The tokens of a value complete it, wherever a value may begin. -/
def Builds (j : Json) : Prop :=
  ∀ stack rest mode, mode = Mode.value ∨ mode = Mode.firstItem →
    build stack mode (j.tokens ++ rest) = build stack (.after j) rest

theorem build_items {item : Json} {items : List Json} (first : item.Builds) (others : ∀ j ∈ items, j.Builds)
    (done : List Json) (stack : List Frame) (rest : List Token) {mode : Mode}
    (begins : mode = Mode.value ∨ mode = Mode.firstItem) :
    build (.array done :: stack) mode (itemTokens (item :: items) ++ .closeArray :: rest) =
      build stack (.after (.array (done.reverse ++ item :: items))) rest := by
  -- On the items to come; those that are done wait in the open frame in reverse.
  induction items generalizing item done mode with
  | nil =>
    rw [itemTokens,first _ _ _ begins]
    simp only [build,advance,List.reverse_cons]
  | cons item' items ih =>
    obtain ⟨next,others⟩ := List.forall_mem_cons.mp others
    rw [itemTokens,List.append_assoc,first _ _ _ begins]
    · simp only [List.cons_append,build,advance]
      rw [ih next others (item :: done) (.inl rfl),List.reverse_cons,List.append_assoc]
      rfl
    · nofun

theorem build_members {key : Option (List Char)} {value : Json} {members : List (Option (List Char) × Json)}
    (first : value.Builds) (others : ∀ m ∈ members, m.2.Builds) (done : List (Option (List Char) × Json))
    (stack : List Frame) (rest : List Token) {mode : Mode} (begins : mode = Mode.key done ∨ mode = Mode.firstKey ∧ done = []) :
    build stack mode (memberTokens ((key,value) :: members) ++ .closeObject :: rest) =
      build stack (.after (.object (done.reverse ++ (key,value) :: members))) rest := by
  induction members generalizing key value done mode with
  | nil =>
    rw [memberTokens,List.cons_append,List.cons_append]
    rcases begins with rfl | ⟨rfl,rfl⟩
    all_goals
      simp only [build,advance]
      rw [first _ _ _ (.inl rfl)]
      simp only [build,advance,List.reverse_cons]
  | cons m members ih =>
    obtain ⟨key',value'⟩ := m
    obtain ⟨next,others⟩ := List.forall_mem_cons.mp others
    rw [memberTokens,List.cons_append,List.cons_append,List.append_assoc]
    · rcases begins with rfl | ⟨rfl,rfl⟩
      all_goals
        simp only [build,advance]
        rw [first _ _ _ (.inl rfl)]
        simp only [List.cons_append,build,advance]
        rw [ih next others _ (.inl rfl),List.reverse_cons,List.append_assoc]
        rfl
    · nofun

theorem build_tokens (j : Json) : j.Builds := by
  induction j using nested with
  | null | bool | number | string =>
    rintro stack rest mode (rfl | rfl) <;> rfl
  | array items ih =>
    cases items with
    | nil => rintro stack rest mode (rfl | rfl) <;> rfl
    | cons item items =>
      obtain ⟨first,others⟩ := List.forall_mem_cons.mp ih
      rintro stack rest mode begins
      rw [tokens,List.cons_append,List.append_assoc]
      rcases begins with rfl | rfl
      all_goals exact build_items first others [] stack rest (.inr rfl)
  | object members ih =>
    cases members with
    | nil => rintro stack rest mode (rfl | rfl) <;> rfl
    | cons m members =>
      obtain ⟨first,others⟩ := List.forall_mem_cons.mp ih
      rintro stack rest mode begins
      rw [tokens,List.cons_append,List.append_assoc]
      rcases begins with rfl | rfl
      all_goals exact build_members first others [] stack rest (.inr ⟨rfl,rfl⟩)

/-! ### Numbers apart -/

/-- The tokens of a value keep numbers apart, before anything that does not begin with a number. -/
def Separates (j : Json) : Prop :=
  ∀ rest, Separated rest → (∀ t ∈ rest.head?, ¬ t.IsNumber) → Separated (j.tokens ++ rest)

theorem Separated.cons {t : Token} {rest : List Token} (separated : Separated rest) (other : ¬ t.IsNumber) :
    Separated (t :: rest) :=
  List.isChain_cons.mpr ⟨fun _ _ both => other both.1,separated⟩

theorem separated_items {items : List Json} (separates : ∀ j ∈ items, j.Separates) {rest : List Token}
    (separated : Separated rest) (other : ∀ t ∈ rest.head?, ¬ t.IsNumber) : Separated (itemTokens items ++ rest) := by
  induction items with
  | nil => exact separated
  | cons item items ih =>
    obtain ⟨first,others⟩ := List.forall_mem_cons.mp separates
    cases items with
    | nil => exact first rest separated other
    | cons item' items =>
      rw [itemTokens,List.append_assoc]
      · refine first _ ((ih others).cons id) ?_
        rintro _ ⟨⟩
        exact id
      · nofun

theorem separated_members {members : List (Option (List Char) × Json)} (separates : ∀ m ∈ members, m.2.Separates)
    {rest : List Token} (separated : Separated rest) (other : ∀ t ∈ rest.head?, ¬ t.IsNumber) :
    Separated (memberTokens members ++ rest) := by
  induction members with
  | nil => exact separated
  | cons m members ih =>
    obtain ⟨key,value⟩ := m
    obtain ⟨first,others⟩ := List.forall_mem_cons.mp separates
    cases members with
    | nil => exact ((first rest separated other).cons id).cons id
    | cons m' members =>
      rw [memberTokens,List.cons_append,List.cons_append,List.append_assoc]
      · refine ((first _ ((ih others).cons id) ?_).cons id).cons id
        rintro _ ⟨⟩
        exact id
      · nofun

theorem separates (j : Json) : j.Separates := by
  induction j using nested with
  | null | bool | string => exact fun rest separated _ => separated.cons id
  | number text => exact fun rest separated other => List.isChain_cons.mpr ⟨fun t member both => other t member both.2,separated⟩
  | array items ih =>
    intro rest separated _
    rw [tokens,List.cons_append,List.append_assoc]
    refine (separated_items ih (separated.cons id) ?_).cons id
    rintro _ ⟨⟩
    exact id
  | object members ih =>
    intro rest separated _
    rw [tokens,List.cons_append,List.append_assoc]
    refine (separated_members ih (separated.cons id) ?_).cons id
    rintro _ ⟨⟩
    exact id

/-! ### Reading -/

/-- Every layout of a value is read as the value. -/
theorem read?_of_laid {j : Json} {s : List UInt8} (laid : Laid j.tokens s) : read? s = some j := by
  have separated : Separated (j.tokens ++ []) := separates j [] .nil nofun
  rw [List.append_nil] at separated
  have built := build_tokens j [] [] .value (.inl rfl)
  rw [List.append_nil] at built
  rw [read?,tokens?_of_laid laid separated,Option.bind_some,built]
  rfl

/-! ### Writing -/

/-- Values that have a text: numbers by the grammar and strings that are known. -/
inductive Proper : Json → Prop
  | null : Proper .null
  | bool (b : Bool) : Proper (.bool b)
  | number {digits : List UInt8} (grammar : IsNumber digits) :
      Proper (.number (digits.map fun d => Char.ofNat d.toNat))
  | string (s : List Char) : Proper (.string (some s))
  | array {items : List Json} (proper : ∀ j ∈ items, Proper j) : Proper (.array items)
  | object {members : List (Option (List Char) × Json)} (known : ∀ m ∈ members, m.1 ≠ none)
      (proper : ∀ m ∈ members, Proper m.2) : Proper (.object members)

theorem unit?_hexadecimal : ∀ n < 0x20, (match Utf8.encode (hexadecimal 4 n) with
    | [w,x,y,z] => unit? w x y z
    | _ => none) = some n := by decide +kernel

theorem writesChar_escape (c : Char) : WritesChar c (Utf8.encode (escapeChar c)) := by
  unfold escapeChar
  split
  · exact .letter (e := 0x22) (b := 0x22) rfl rfl
  · exact .letter (e := 0x5C) (b := 0x5C) rfl rfl
  · exact .letter (e := 0x62) (b := 0x08) rfl rfl
  · exact .letter (e := 0x66) (b := 0x0C) rfl rfl
  · exact .letter (e := 0x6E) (b := 0x0A) rfl rfl
  · exact .letter (e := 0x72) (b := 0x0D) rfl rfl
  · exact .letter (e := 0x74) (b := 0x09) rfl rfl
  · rename_i quote slash _ _ _ _ _
    by_cases control : c.toNat < 0x20
    · have read := unit?_hexadecimal c.toNat control
      rw [if_pos control,Utf8.encode_cons,Utf8.encode_cons]
      split at read
      · rename_i w x y z bytes
        rw [bytes]
        exact .unit read
      · cases read
    · rw [if_neg control,Utf8.encode_cons]
      change WritesChar c (Utf8.encodeChar c ++ [])
      rw [List.append_nil]
      exact .plain ⟨quote,slash,not_lt.mp control⟩

theorem writesText_escape (s : List Char) : WritesText s (Utf8.encode (s.flatMap escapeChar)) := by
  induction s with
  | nil => exact .nil
  | cons c s ih =>
    rw [List.flatMap_cons,Utf8.encode_append]
    exact .cons (writesChar_escape c) ih

theorem writes_string (s : List Char) : (Token.string (some s)).Writes (Utf8.encode (renderString (some s))) := by
  have written := Token.Writes.string (writesText_escape s)
  have form : Utf8.encode (renderString (some s)) = 0x22 :: (Utf8.encode (s.flatMap escapeChar) ++ [0x22]) := by
    rw [renderString,List.cons_append,Utf8.encode_cons,Utf8.encode_append]
    rfl
  rwa [form]

theorem encode_ascii {digits : List UInt8} (ascii : ∀ d ∈ digits, d.toNat < 0x80) :
    Utf8.encode (digits.map fun d => Char.ofNat d.toNat) = digits := by
  induction digits with
  | nil => rfl
  | cons d digits ih =>
    obtain ⟨small,others⟩ := List.forall_mem_cons.mp ascii
    have number := Utf8.toNat_ofNat (n := d.toNat) (by omega)
    rw [List.map_cons,Utf8.encode_cons,ih others,Utf8.encodeChar_one (by omega),toUInt8_eq number]
    rfl

/-- What is written of a value is one of its layouts. -/
def Lays (j : Json) : Prop :=
  ∀ rest s, Laid rest s → Laid (j.tokens ++ rest) (Utf8.encode j.render ++ s)

theorem laid_items {items : List Json} (lays : ∀ j ∈ items, j.Lays) {rest : List Token} {s : List UInt8}
    (laid : Laid rest s) : Laid (itemTokens items ++ rest) (Utf8.encode (renderItems items) ++ s) := by
  induction items with
  | nil => exact laid
  | cons item items ih =>
    obtain ⟨first,others⟩ := List.forall_mem_cons.mp lays
    cases items with
    | nil => exact first rest s laid
    | cons item' items =>
      have comma := Laid.token .comma (ih others)
      have whole := first _ _ comma
      rw [itemTokens,renderItems,Utf8.encode_append,Utf8.encode_cons,List.append_assoc,List.append_assoc]
      · exact whole
      all_goals nofun

theorem laid_members {members : List (Option (List Char) × Json)} (known : ∀ m ∈ members, m.1 ≠ none)
    (lays : ∀ m ∈ members, m.2.Lays) {rest : List Token} {s : List UInt8} (laid : Laid rest s) :
    Laid (memberTokens members ++ rest) (Utf8.encode (renderMembers members) ++ s) := by
  induction members with
  | nil => exact laid
  | cons m members ih =>
    obtain ⟨key,value⟩ := m
    obtain ⟨first,others⟩ := List.forall_mem_cons.mp lays
    obtain ⟨named,known'⟩ := List.forall_mem_cons.mp known
    obtain ⟨key,rfl⟩ := Option.ne_none_iff_exists'.mp named
    cases members with
    | nil =>
      have whole := Laid.token (writes_string key) (.token .colon (first rest s laid))
      rw [memberTokens,renderMembers,Utf8.encode_append,Utf8.encode_cons,List.append_assoc,List.append_assoc]
      exact whole
    | cons m' members =>
      have comma := Laid.token .comma (ih known' others)
      have whole := Laid.token (writes_string key) (.token .colon (first _ _ comma))
      rw [memberTokens,renderMembers]
      · simp only [Utf8.encode_append,Utf8.encode_cons,List.append_assoc,List.cons_append]
        exact whole
      all_goals nofun

theorem lays {j : Json} (proper : j.Proper) : j.Lays := by
  induction proper with
  | null => exact fun rest s laid => .token .null laid
  | bool b =>
    cases b
    · exact fun rest s laid => .token .false laid
    · exact fun rest s laid => .token .true laid
  | number grammar =>
    intro rest s laid
    rw [render,encode_ascii grammar.ascii]
    exact .token (.number grammar) laid
  | string s => exact fun rest _ laid => .token (writes_string s) laid
  | array proper ih =>
    intro rest s laid
    have whole := Laid.token .openArray (laid_items ih (.token .closeArray laid))
    rw [tokens,render]
    simp only [Utf8.encode_append,Utf8.encode_cons,List.append_assoc,List.cons_append]
    exact whole
  | object known proper ih =>
    intro rest s laid
    have whole := Laid.token .openObject (laid_members known ih (.token .closeObject laid))
    rw [tokens,render]
    simp only [Utf8.encode_append,Utf8.encode_cons,List.append_assoc,List.cons_append]
    exact whole

theorem laid_render {j : Json} (proper : j.Proper) : Laid j.tokens (Utf8.encode j.render) := by
  have laid := lays proper [] [] .nil
  rwa [List.append_nil,List.append_nil] at laid

theorem read?_render {j : Json} (proper : j.Proper) : read? (Utf8.encode j.render) = some j :=
  read?_of_laid (laid_render proper)

end Playout.Json
