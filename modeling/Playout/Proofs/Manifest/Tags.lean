import Playout.Proofs.Text.Split

/-!
Attribute lists, as they follow the tags of a playlist: names with values, the
values in quotes or not, separated by the commas outside quotes. What is written
is read back.
-/
namespace Playout.Manifest

/-- The value of an attribute. -/
inductive AttributeValue where
  | bare (text : List Char)
  | quoted (text : List Char)
  deriving DecidableEq, Repr

/-- The attributes of a tag by name. -/
abbrev Attributes := List (List Char × AttributeValue)

/-! ### Writing and reading -/

def AttributeValue.text : AttributeValue → List Char
  | bare text => text
  | quoted text => '"' :: (text ++ ['"'])

/-- One attribute as text. -/
def attributeText (a : List Char × AttributeValue) : List Char := a.1 ++ '=' :: a.2.text

def Attributes.text (as : Attributes) : List Char := Text.joinWith [','] (as.map attributeText)

/-- The parts of a text between the commas that are not in quotes; the text may begin in quotes. -/
def fields (inside : Bool) : List Char → List (List Char)
  | [] => [[]]
  | c :: rest =>
    if c = ',' ∧ inside = false then [] :: fields false rest
    else (fields (inside != (c == '"')) rest).modifyHead (c :: ·)

/-- A value without the quotes around it. -/
def AttributeValue.ofText (text : List Char) : AttributeValue :=
  match (Text.dropStart? ['"'] text).bind (Text.dropEnd? ['"']) with
  | some inner => quoted inner
  | none => bare text

def attributeOf? (field : List Char) : Option (List Char × AttributeValue) :=
  (Text.splitFirst? '=' field).map fun (name,value) => (name,.ofText value)

def Attributes.ofText? (text : List Char) : Option Attributes := (fields false text).mapM attributeOf?

/-! ### What may be written -/

/-- A text that needs no quotes. -/
def IsBare (text : List Char) : Prop := ',' ∉ text ∧ '"' ∉ text ∧ '\n' ∉ text
  deriving Decidable

def AttributeValue.Proper : AttributeValue → Prop
  | bare text => IsBare text
  | quoted text => '"' ∉ text ∧ '\n' ∉ text

/-- What stands in the quotes of a value, if it has quotes. -/
def AttributeValue.inner? : AttributeValue → Option (List Char)
  | bare _ => none
  | quoted text => some text

/-- What stands in the quotes of some attributes. -/
def Attributes.inQuotes (as : Attributes) : List (List Char) := as.filterMap (·.2.inner?)

/-- An attribute in which nothing is amiss but for what stands in its quotes. -/
structure IsNamed (a : List Char × AttributeValue) : Prop where
  name : IsBare a.1 ∧ '=' ∉ a.1
  bare : ∀ text, a.2 = .bare text → IsBare text

/-- An attribute whose name and value can be told apart, and which can be told apart from others of its line. -/
structure ProperAttribute (a : List Char × AttributeValue) : Prop where
  name : IsBare a.1 ∧ '=' ∉ a.1
  value : a.2.Proper

/-! ### Fields -/

variable {s : List Char}

theorem fields_bare (bare : IsBare s) (rest : List Char) :
    fields false (s ++ rest) = (fields false rest).modifyHead (s ++ ·) := by
  induction s with
  | nil => exact (congrFun List.modifyHead_id _).symm
  | cons c s ih =>
    have comma : c ≠ ',' := fun same => bare.1 (same ▸ List.mem_cons_self)
    have quote : (c == '"') = false := beq_eq_false_iff_ne.mpr fun same => bare.2.1 (same ▸ List.mem_cons_self)
    have later := ih ⟨fun member => bare.1 (.tail c member),fun member => bare.2.1 (.tail c member),
      fun member => bare.2.2 (.tail c member)⟩
    rw [List.cons_append,fields,if_neg fun both => comma both.1,quote]
    exact (congrArg (List.modifyHead (c :: ·)) later).trans (List.modifyHead_modifyHead ..)

theorem fields_inside (unquoted : '"' ∉ s) (rest : List Char) :
    fields true (s ++ rest) = (fields true rest).modifyHead (s ++ ·) := by
  induction s with
  | nil => exact (congrFun List.modifyHead_id _).symm
  | cons c s ih =>
    have quote : (c == '"') = false := beq_eq_false_iff_ne.mpr fun same => unquoted (same ▸ List.mem_cons_self)
    have later := ih fun member => unquoted (.tail c member)
    rw [List.cons_append,fields,if_neg (by simp),quote]
    exact (congrArg (List.modifyHead (c :: ·)) later).trans (List.modifyHead_modifyHead ..)

theorem fields_quote (inside : Bool) (rest : List Char) :
    fields inside ('"' :: rest) = (fields (!inside) rest).modifyHead ('"' :: ·) := by
  rw [fields,if_neg (by simp)]
  cases inside <;> rfl

theorem fields_value {value : AttributeValue} (proper : value.Proper) (rest : List Char) :
    fields false (value.text ++ rest) = (fields false rest).modifyHead (value.text ++ ·) := by
  cases value with
  | bare text => exact fields_bare proper rest
  | quoted text =>
    have shape : (AttributeValue.quoted text).text ++ rest = '"' :: (text ++ '"' :: rest) := by
      simp [AttributeValue.text]
    rw [shape,fields_quote,Bool.not_false,fields_inside proper.1,fields_quote,Bool.not_true,
      List.modifyHead_modifyHead,List.modifyHead_modifyHead]
    refine congrArg (fun f => List.modifyHead f (fields false rest)) (funext fun head => ?_)
    simp [AttributeValue.text]

/-- An attribute is not taken apart, and goes on with what follows it. -/
theorem fields_attribute {a : List Char × AttributeValue} (proper : ProperAttribute a) (rest : List Char) :
    fields false (attributeText a ++ rest) = (fields false rest).modifyHead (attributeText a ++ ·) := by
  have sign : IsBare ['='] := by decide
  have shape : attributeText a ++ rest = a.1 ++ (['='] ++ (a.2.text ++ rest)) := by simp [attributeText]
  rw [shape,fields_bare proper.name.1,fields_bare sign,fields_value proper.value,List.modifyHead_modifyHead,
    List.modifyHead_modifyHead]
  refine congrArg (fun f => List.modifyHead f (fields false rest)) (funext fun head => ?_)
  simp [attributeText]

/-- The first attribute stands alone, and a comma before each of the others. -/
theorem Attributes.text_cons (a : List Char × AttributeValue) (as : Attributes) :
    text (a :: as) = attributeText a ++ as.flatMap fun b => ',' :: attributeText b := by
  induction as generalizing a with
  | nil => exact (List.append_nil _).symm
  | cons b as ih =>
    have shape : text (a :: b :: as) = attributeText a ++ ',' :: text (b :: as) := by
      simp [text,Text.joinWith]
    rw [shape,ih b]
    rfl

theorem fields_text {a : List Char × AttributeValue} {as : Attributes} (proper : ∀ b ∈ a :: as, ProperAttribute b) :
    fields false (Attributes.text (a :: as)) = (a :: as).map attributeText := by
  rw [Attributes.text_cons]
  induction as generalizing a with
  | nil =>
    rw [fields_attribute (proper a List.mem_cons_self)]
    simp [fields]
  | cons b as ih =>
    have others := ih fun c member => proper c (List.mem_cons_of_mem a member)
    rw [fields_attribute (proper a List.mem_cons_self),List.flatMap_cons,List.cons_append,fields,if_pos ⟨rfl,rfl⟩,others]
    simp

/-! ### Line breaks -/

theorem mem_inQuotes {as : Attributes} {text : List Char} :
    text ∈ as.inQuotes ↔ ∃ a ∈ as, a.2 = .quoted text := by
  simp only [Attributes.inQuotes,List.mem_filterMap]
  refine exists_congr fun a => and_congr_right fun _ => ?_
  cases a.2 <;> simp [AttributeValue.inner?]

theorem proper_of_named {as : Attributes} (named : ∀ a ∈ as, IsNamed a)
    (inner : ∀ text ∈ as.inQuotes, '"' ∉ text ∧ '\n' ∉ text) : ∀ a ∈ as, ProperAttribute a := by
  intro a member
  refine ⟨(named a member).name,?_⟩
  cases written : a.2 with
  | bare text => exact (named a member).bare text written
  | quoted text => exact inner text (mem_inQuotes.mpr ⟨a,member,written⟩)

theorem count_attribute {a : List Char × AttributeValue} (named : IsNamed a) :
    (attributeText a).count '\n' = a.2.inner?.toList.flatten.count '\n' := by
  have name : a.1.count '\n' = 0 := List.count_eq_zero.mpr named.name.1.2.2
  cases written : a.2 with
  | bare text =>
    have bare : text.count '\n' = 0 := List.count_eq_zero.mpr (named.bare text written).2.2
    simp [attributeText,written,AttributeValue.text,AttributeValue.inner?,name,bare]
  | quoted text => simp [attributeText,written,AttributeValue.text,AttributeValue.inner?,name]

/-- The number of line breaks in quotes. -/
def Attributes.breaks (as : Attributes) : Nat := as.inQuotes.flatten.count '\n'

theorem breaks_cons (a : List Char × AttributeValue) (as : Attributes) :
    Attributes.breaks (a :: as) = a.2.inner?.toList.flatten.count '\n' + as.breaks := by
  rw [Attributes.breaks,Attributes.inQuotes,List.filterMap_cons]
  cases a.2.inner? <;> simp [Attributes.breaks,Attributes.inQuotes]

theorem breaks_eq_zero_iff {as : Attributes} : as.breaks = 0 ↔ ∀ text ∈ as.inQuotes, '\n' ∉ text := by
  simp [Attributes.breaks,List.count_eq_zero]

/-- The line breaks in a list of attributes are those in quotes. -/
theorem count_text {as : Attributes} (named : ∀ a ∈ as, IsNamed a) : as.text.count '\n' = as.breaks := by
  have others (as : Attributes) (named : ∀ a ∈ as, IsNamed a) :
      (as.flatMap fun b => ',' :: attributeText b).count '\n' = as.breaks := by
    induction as with
    | nil => rfl
    | cons b as ih =>
      obtain ⟨first,later⟩ := List.forall_mem_cons.mp named
      simp [breaks_cons,ih later,count_attribute first]
  cases as with
  | nil => rfl
  | cons a as =>
    obtain ⟨first,later⟩ := List.forall_mem_cons.mp named
    rw [Attributes.text_cons,List.count_append,breaks_cons,others as later,count_attribute first]

/-! ### Reading back -/

theorem AttributeValue.ofText_text {value : AttributeValue} (proper : value.Proper) : ofText value.text = value := by
  cases value with
  | bare text =>
    have unopened : Text.dropStart? ['"'] text = none := by
      cases text with
      | nil => rfl
      | cons c text => exact if_neg fun same : c = '"' => proper.2.1 (same ▸ List.mem_cons_self)
    rw [AttributeValue.text,ofText,unopened]
    rfl
  | quoted text =>
    have opened : Text.dropStart? ['"'] ('"' :: (text ++ ['"'])) = some (text ++ ['"']) :=
      Text.dropStart?_append ['"'] (text ++ ['"'])
    rw [AttributeValue.text,ofText,opened,Option.bind_some,Text.dropEnd?_append]

theorem attributeOf?_text {a : List Char × AttributeValue} (proper : ProperAttribute a) :
    attributeOf? (attributeText a) = some a := by
  have split := Text.splitFirst?_append proper.name.2 a.2.text
  rw [attributeOf?,attributeText,split,Option.map_some]
  exact congrArg (fun value => some (a.1,value)) (AttributeValue.ofText_text proper.value)

theorem Attributes.ofText?_text {a : List Char × AttributeValue} {as : Attributes}
    (proper : ∀ b ∈ a :: as, ProperAttribute b) : ofText? (text (a :: as)) = some (a :: as) := by
  rw [ofText?,fields_text proper]
  generalize a :: as = bs at proper
  induction bs with
  | nil => rfl
  | cons b bs ih =>
    rw [List.map_cons,List.mapM_cons,attributeOf?_text (proper b List.mem_cons_self),
      ih fun c member => proper c (List.mem_cons_of_mem b member)]
    rfl

end Playout.Manifest
