import Mathlib.Tactic.SplitIfs
import Playout.Manifest.Mpd

/-!
A reader of XML documents that have no text between their tags. It goes from letter to letter and trusts nothing: a
value ends at the first quote, and what stands in it is taken for markup unless it is escaped. What is escaped is read
as it was, and so the parts of a document are read one by one, each from where the one before it ends (`Leads`).
-/
namespace Playout.Markup
open Manifest

/-! ### Tags -/

/-- A tag stands before a document, where an element begins or ends, or for an element without content. -/
inductive Form where
  | declaration
  | opening
  | closing
  | empty
  deriving DecidableEq, Repr

abbrev Attributes := List (String × String)

structure Tag where
  form : Form
  name : String
  attributes : Attributes
  deriving DecidableEq, Repr

/-- A tag with further attributes. -/
def Tag.with (tag : Tag) (as : Attributes) : Tag := { tag with attributes := tag.attributes ++ as }

/-- A text with its escapes resolved; a bare mark of an escape or a tag is not allowed. -/
def unescape? : List Char → Option (List Char)
  | [] => some []
  | '&' :: 'a' :: 'm' :: 'p' :: ';' :: rest => (unescape? rest).map ('&' :: ·)
  | '&' :: 'l' :: 't' :: ';' :: rest => (unescape? rest).map ('<' :: ·)
  | '&' :: 'g' :: 't' :: ';' :: rest => (unescape? rest).map ('>' :: ·)
  | '&' :: 'q' :: 'u' :: 'o' :: 't' :: ';' :: rest => (unescape? rest).map ('"' :: ·)
  | '&' :: 'a' :: 'p' :: 'o' :: 's' :: ';' :: rest => (unescape? rest).map ('\'' :: ·)
  | c :: rest => if c = '&' ∨ c = '<' then none else (unescape? rest).map (c :: ·)

def isSpace (c : Char) : Bool := c ∈ [' ','\t','\n','\r']

def isNameLetter (c : Char) : Bool := c.isAlphanum || c ∈ ['-','_',':','.']

/-- Where a reader stands. -/
inductive Place where
  | between
  | opened
  | name (form : Form) (letters : List Char)
  /-- At the end of an attribute. -/
  | attributed (tag : Tag)
  /-- After a space in a tag. -/
  | spaced (tag : Tag)
  | attribute (tag : Tag) (letters : List Char)
  /-- After an equals sign. -/
  | assigned (tag : Tag) (name : List Char)
  /-- In the value of an attribute. -/
  | value (tag : Tag) (name text : List Char)
  /-- Before the last letter of a tag. -/
  | ending (tag : Tag)

/-- What may follow a name or an attribute in a tag: a space, or the end of the tag. -/
def Tag.follow (tag : Tag) (c : Char) : Option (List Tag × Place) :=
  if isSpace c then some ([],.spaced tag)
  else if c = '>' ∧ tag.form ≠ .declaration then some ([tag],.between)
  else if c = '/' ∧ tag.form = .opening then some ([],.ending { tag with form := .empty })
  else if c = '?' ∧ tag.form = .declaration then some ([],.ending tag)
  else none

/-- The tag that ends with a letter, if one does, and the place after it. -/
def step : Place → Char → Option (List Tag × Place)
  | .between,c => if c = '<' then some ([],.opened) else if isSpace c then some ([],.between) else none
  | .opened,c =>
    if c = '/' then some ([],.name .closing [])
    else if c = '?' then some ([],.name .declaration [])
    else if isNameLetter c then some ([],.name .opening [c])
    else none
  | .name form letters,c =>
    if isNameLetter c then some ([],.name form (letters ++ [c]))
    else if letters = [] then none
    else Tag.follow ⟨form,String.ofList letters,[]⟩ c
  | .attributed tag,c => tag.follow c
  | .spaced tag,c => if isNameLetter c then some ([],.attribute tag [c]) else tag.follow c
  | .attribute tag letters,c =>
    if isNameLetter c then some ([],.attribute tag (letters ++ [c]))
    else if c = '=' then some ([],.assigned tag letters)
    else none
  | .assigned tag name,c => if c = '"' then some ([],.value tag name []) else none
  | .value tag name text,c =>
    if c = '"' then
      (unescape? text).map fun value => ([],.attributed (tag.with [(String.ofList name,String.ofList value)]))
    else some ([],.value tag name (text ++ [c]))
  | .ending tag,c => if c = '>' then some ([tag],.between) else none

/-- The tags of a text that is read from a place on, and the place after it. -/
def run : Place → List Char → Option (List Tag × Place)
  | place,[] => some ([],place)
  | place,c :: rest => do
    let (tags,place) ← step place c
    let (others,place) ← run place rest
    some (tags ++ others,place)

/-- The tags of a whole text. -/
def tags? (text : List Char) : Option (List Tag) :=
  match run .between text with
  | some (tags,.between) => some tags
  | _ => none

/-! ### Elements -/

inductive Element where
  | mk (name : String) (attributes : Attributes) (children : List Element)

/-- An element whose end has not come yet, with the siblings before it. -/
structure Unfinished where
  name : String
  attributes : Attributes
  before : List Element

/-- The elements of some tags that come after `siblings` inside of unfinished elements, the innermost first. -/
def build : List Unfinished → List Element → List Tag → Option (List Element)
  | [],siblings,[] => some siblings
  | _ :: _,_,[] => none
  | around,siblings,⟨.opening,name,attributes⟩ :: rest => build (⟨name,attributes,siblings⟩ :: around) [] rest
  | around,siblings,⟨.empty,name,attributes⟩ :: rest => build around (siblings ++ [.mk name attributes []]) rest
  | around,siblings,⟨.closing,name,attributes⟩ :: rest =>
    match around with
    | [] => none
    | parent :: around =>
      if parent.name = name ∧ attributes = [] then
        build around (parent.before ++ [.mk parent.name parent.attributes siblings]) rest
      else none
  | _,_,⟨.declaration,_,_⟩ :: _ => none

/-- The element that a document consists of. -/
def Element.ofText? (text : List Char) : Option Element := do
  match ← tags? text with
  | ⟨.declaration,_,_⟩ :: tags =>
    match ← build [] [] tags with
    | [root] => some root
    | _ => none
  | _ => none

/-! ### Escapes -/

theorem unescape?_cons {c : Char} (mark : c ≠ '&') (tag : c ≠ '<') (rest : List Char) :
    unescape? (c :: rest) = (unescape? rest).map (c :: ·) := by
  rw [unescape?.eq_def]
  split <;> simp_all

theorem unescape?_escape (s : String) : unescape? (escape s).toList = some s.toList := by
  rw [escape,String.toList_ofList]
  induction s.toList with
  | nil => rfl
  | cons c rest ih =>
    rw [List.flatMap_cons,escapeChar]
    split_ifs with h₁ h₂ h₃ h₄ h₅
    all_goals simp_all [unescape?,unescape?_cons]

/-- What stands in quotes for a text. -/
structure StandsFor (written text : String) : Prop where
  quote : '"' ∉ written.toList
  resolved : unescape? written.toList = some text.toList

/-- A text without the letters that begin tags and escapes and end values. -/
def IsUnmarked (s : String) : Prop := ∀ c ∈ s.toList, c ≠ '&' ∧ c ≠ '<' ∧ c ≠ '"'

instance (s : String) : Decidable (IsUnmarked s) := List.decidableBAll _ s.toList

theorem IsUnmarked.standsFor {s : String} (unmarked : IsUnmarked s) : StandsFor s s where
  quote := fun member => (unmarked _ member).2.2 rfl
  resolved := by
    have all : ∀ l : List Char, (∀ c ∈ l, c ≠ '&' ∧ c ≠ '<' ∧ c ≠ '"') → unescape? l = some l := by
      intro l unmarked
      induction l with
      | nil => rfl
      | cons c rest ih =>
        obtain ⟨⟨mark,tag,_⟩,later⟩ := List.forall_mem_cons.mp unmarked
        rw [unescape?_cons mark tag,ih later]
        rfl
    exact all s.toList unmarked

/-! ### Texts read one after the other -/

/-- Reading a text from a place on gives some tags and ends at another place. -/
def Leads (place : Place) (text : List Char) (tags : List Tag) (next : Place) : Prop := run place text = some (tags,next)

variable {place next last : Place} {s t : List Char} {tags others : List Tag} {tag : Tag}

theorem leads_nil (place : Place) : Leads place [] [] place := rfl

theorem Leads.trans (first : Leads place s tags next) (second : Leads next t others last) :
    Leads place (s ++ t) (tags ++ others) last := by
  induction s generalizing place tags with
  | nil =>
    obtain ⟨rfl,rfl⟩ := Prod.mk.inj (Option.some.inj first)
    exact second
  | cons c s ih =>
    rw [Leads,run] at first
    cases stepped : step place c with
    | none => simp [stepped] at first
    | some reached =>
      obtain ⟨found,place'⟩ := reached
      cases later : run place' s with
      | none => simp [stepped,later] at first
      | some reached =>
        obtain ⟨more,place''⟩ := reached
        simp only [stepped,later,Option.bind_eq_bind,Option.bind_some,Option.some.injEq,Prod.mk.injEq] at first
        obtain ⟨rfl,rfl⟩ := first
        have read := ih later
        rw [Leads] at read
        rw [Leads,List.cons_append,run,stepped]
        simp [read]

/-- A letter after which the reader is at another place. -/
theorem leads_letter {c : Char} (stepped : step place c = some (tags,next)) : Leads place [c] tags next := by
  simp [Leads,run,stepped]

/-- Letters after each of which the reader is at a place of the same kind. -/
theorem leads_letters (place : List Char → Place) (IsLetter : Char → Prop)
    (stays : ∀ read c, IsLetter c → step (place read) c = some ([],place (read ++ [c]))) (read : List Char)
    (letters : ∀ c ∈ s, IsLetter c) : Leads (place read) s [] (place (read ++ s)) := by
  induction s generalizing read with
  | nil =>
    rw [List.append_nil]
    exact leads_nil _
  | cons c s ih =>
    obtain ⟨first,later⟩ := List.forall_mem_cons.mp letters
    have rest := (leads_letter (stays read c first)).trans (ih (read ++ [c]) later)
    simpa using rest

/-! ### Attributes -/

/-- A place at the end of the name or of an attribute of a tag. -/
inductive IsAt : Place → Tag → Prop
  | name (form : Form) {name : String} (nonempty : name ≠ "") : IsAt (.name form name.toList) ⟨form,name,[]⟩
  | attributed (tag : Tag) : IsAt (.attributed tag) tag

theorem IsAt.step_eq {c : Char} (isAt : IsAt place tag) (other : isNameLetter c = false) : step place c = tag.follow c := by
  cases isAt with
  | name form nonempty =>
    have some_letter : ¬ _ = [] := fun none => nonempty (String.toList_eq_nil_iff.mp none)
    rw [step,if_neg (by simp [other]),if_neg some_letter,String.ofList_toList]
  | attributed => rfl

/-- What may be the name of an attribute. -/
def IsName (name : String) : Prop := name ≠ "" ∧ ∀ c ∈ name.toList, isNameLetter c = true

instance (name : String) : Decidable (IsName name) :=
  @instDecidableAnd _ _ _ (List.decidableBAll _ name.toList)

theorem leads_attribute {name written value : String} (isAt : IsAt place tag) (named : IsName name)
    (stands : StandsFor written value) :
    Leads place (xmlAttribute name written).toList [] (.attributed (tag.with [(name,value)])) := by
  obtain ⟨first,rest,letters⟩ := List.exists_cons_of_ne_nil fun none => named.1 (String.toList_eq_nil_iff.mp none)
  obtain ⟨initial,others⟩ := List.forall_mem_cons.mp (letters ▸ named.2)
  have space : Leads place [' '] [] (.spaced tag) := leads_letter (isAt.step_eq (by decide))
  have begins : Leads (.spaced tag) [first] [] (.attribute tag [first]) := leads_letter (if_pos initial)
  have name' : Leads (.attribute tag [first]) rest [] (.attribute tag ([first] ++ rest)) :=
    leads_letters (.attribute tag) (isNameLetter · = true) (fun _ _ letter => if_pos letter) [first] others
  have equals : Leads (.attribute tag ([first] ++ rest)) ['='] [] (.assigned tag ([first] ++ rest)) := leads_letter rfl
  have opens : Leads (.assigned tag ([first] ++ rest)) ['"'] [] (.value tag ([first] ++ rest) []) := leads_letter rfl
  have text : Leads (.value tag ([first] ++ rest) []) written.toList [] (.value tag ([first] ++ rest) ([] ++ written.toList)) :=
    leads_letters (.value tag ([first] ++ rest)) (· ≠ '"') (fun _ _ other => if_neg other) []
      fun c member same => stands.quote (same ▸ member)
  have closes : Leads (.value tag ([first] ++ rest) ([] ++ written.toList)) ['"'] []
      (.attributed (tag.with [(name,value)])) := by
    refine leads_letter ?_
    have again : String.ofList ([first] ++ rest) = name := by
      rw [List.singleton_append,← letters,String.ofList_toList]
    rw [step,if_pos rfl,List.nil_append,stands.resolved,Option.map_some,String.ofList_toList,again]
  have whole := space.trans (begins.trans (name'.trans (equals.trans (opens.trans (text.trans closes)))))
  simpa [xmlAttribute,letters] using whole

/-- The beginning of a tag, up to the end of some attributes. -/
def Begins (text : String) (tag : Tag) : Prop := ∃ place, IsAt place tag ∧ Leads .between text.toList [] place

/-- A text that adds attributes to any tag. -/
def Adds (text : String) (as : Attributes) : Prop := ∀ before tag, Begins before tag → Begins (before ++ text) (tag.with as)

theorem Begins.add {before text : String} {as : Attributes} (begins : Begins before tag) (adds : Adds text as) :
    Begins (before ++ text) (tag.with as) := adds before tag begins

theorem adds_attribute (name : String) {written value : String} (stands : StandsFor written value)
    (named : IsName name) : Adds (xmlAttribute name written) [(name,value)] := by
  intro before tag begins
  obtain ⟨place,isAt,leads⟩ := begins
  refine ⟨_,.attributed _,?_⟩
  rw [String.toList_append]
  exact leads.trans (leads_attribute isAt named stands)

theorem adds_nothing : Adds "" [] := by
  intro before tag begins
  simpa [Tag.with] using begins

theorem Adds.append {text other : String} {as bs : Attributes} (first : Adds text as) (second : Adds other bs) :
    Adds (text ++ other) (as ++ bs) := by
  intro before tag begins
  have both := (begins.add first).add second
  simpa [Tag.with,String.append_assoc] using both

/-- Attributes that are written under a condition. -/
theorem Adds.ite {p : Prop} [Decidable p] {text : String} {as : Attributes} (adds : Adds text as) :
    Adds (if p then text else "") (if p then as else []) := by
  split
  · exact adds
  · exact adds_nothing

theorem Adds.unless {p : Prop} [Decidable p] {text : String} {as : Attributes} (adds : Adds text as) :
    Adds (if p then "" else text) (if p then [] else as) := by
  split
  · exact adds_nothing
  · exact adds

/-! ### Lines -/

/-- Lines as a text, each with its end. -/
def joined (lines : List String) : String := String.join (lines.map (· ++ "\n"))

/-- Lines that have nothing but some tags on them. -/
def Hold (lines : List String) (tags : List Tag) : Prop := Leads .between (joined lines).toList tags .between

theorem toList_joined_append (lines others : List String) :
    (joined (lines ++ others)).toList = (joined lines).toList ++ (joined others).toList := by
  simp [joined]

theorem Hold.append {lines others : List String} {more : List Tag} (first : Hold lines tags) (second : Hold others more) :
    Hold (lines ++ others) (tags ++ more) := by
  rw [Hold,toList_joined_append]
  exact first.trans second

theorem Hold.flatMap {α : Type} {lines : α → List String} {tags : α → List Tag} {as : List α}
    (each : ∀ a ∈ as, Hold (lines a) (tags a)) : Hold (as.flatMap lines) (as.flatMap tags) := by
  induction as with
  | nil => exact leads_nil _
  | cons a as ih =>
    obtain ⟨first,later⟩ := List.forall_mem_cons.mp each
    rw [List.flatMap_cons,List.flatMap_cons]
    exact first.append (ih later)

/-- A line on which a tag that has begun comes to its end. -/
theorem Begins.hold {before ending : String} (begins : Begins before tag)
    (ends : ∀ place, IsAt place tag → Leads place ending.toList tags .between) : Hold [before ++ ending] tags := by
  obtain ⟨place,isAt,leads⟩ := begins
  have line : Leads .between ['\n'] [] .between := rfl
  have whole := leads.trans ((ends place isAt).trans line)
  simpa [Hold,joined] using whole

theorem Begins.opening {before name : String} {as : Attributes} (begins : Begins before ⟨.opening,name,as⟩) :
    Hold [before ++ ">"] [⟨.opening,name,as⟩] := by
  refine begins.hold fun place isAt => leads_letter ?_
  rw [isAt.step_eq (by decide)]
  rfl

theorem Begins.empty {before name : String} {as : Attributes} (begins : Begins before ⟨.opening,name,as⟩) :
    Hold [before ++ "/>"] [⟨.empty,name,as⟩] := by
  refine begins.hold fun place isAt => ?_
  have slash : Leads place ['/'] [] (.ending ⟨.empty,name,as⟩) := by
    refine leads_letter ?_
    rw [isAt.step_eq (by decide)]
    rfl
  exact slash.trans (leads_letter rfl)

/-! ### Nested tags -/

/-- Tags that make some elements, wherever they stand. -/
def Nest (tags : List Tag) (elements : List Element) : Prop :=
  ∀ around siblings rest, build around siblings (tags ++ rest) = build around (siblings ++ elements) rest

theorem nest_nil : Nest [] [] := by
  intro around siblings rest
  simp

theorem Nest.append {more : List Tag} {es fs : List Element} (first : Nest tags es) (second : Nest more fs) :
    Nest (tags ++ more) (es ++ fs) := by
  intro around siblings rest
  rw [List.append_assoc,first,second,List.append_assoc]

theorem Nest.flatMap {α : Type} {tags : α → List Tag} {element : α → Element} {as : List α}
    (each : ∀ a ∈ as, Nest (tags a) [element a]) : Nest (as.flatMap tags) (as.map element) := by
  induction as with
  | nil => exact nest_nil
  | cons a as ih =>
    obtain ⟨first,later⟩ := List.forall_mem_cons.mp each
    rw [List.flatMap_cons]
    exact first.append (ih later)

theorem nest_empty (name : String) (as : Attributes) : Nest [⟨.empty,name,as⟩] [.mk name as []] := by
  intro around siblings rest
  rw [List.singleton_append,build]

/-- The tags of an element with others inside. -/
def enclose (name : String) (as : Attributes) (inner : List Tag) : List Tag :=
  ⟨.opening,name,as⟩ :: (inner ++ [⟨.closing,name,[]⟩])

theorem Nest.enclose {inner : List Tag} {es : List Element} (nest : Nest inner es) (name : String) (as : Attributes) :
    Nest (enclose name as inner) [.mk name as es] := by
  intro around siblings rest
  rw [Markup.enclose,List.cons_append,build,List.append_assoc,nest,List.singleton_append,build]
  simp

/-- A document whose lines are a declaration and those of an element is read as the element. -/
theorem Element.ofText?_joined {lines : List String} {as : Attributes} {name : String} {root : Element}
    (hold : Hold lines (⟨.declaration,name,as⟩ :: tags)) (nest : Nest tags [root]) :
    Element.ofText? (joined lines).toList = some root := by
  have read : tags? (joined lines).toList = some (⟨.declaration,name,as⟩ :: tags) := by
    rw [tags?,hold]
  have built : build [] [] tags = some [root] := by
    have := nest [] [] []
    simpa [build] using this
  simp [Element.ofText?,read,built]

end Playout.Markup
