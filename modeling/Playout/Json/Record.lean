import Playout.Json.Number

/-!
# Records in JSON

A record is an object whose keys name its fields, or an array of its fields in
order. In an object unknown keys are ignored, no field comes twice, a missing
optional field is absent and `null` is taken for an optional field alone. In an
array only fields with a default may be missing, at the end, and none may be
left over.
-/
namespace Playout.Json

/-- What a field that is not there means. -/
inductive Presence where
  | required
  | optional
  | defaulted

/-- A field of a record. -/
structure Field where
  name : String
  presence : Presence

/-- The value of a field in an object, `some none` if it may be and is missing. -/
def memberOf? (members : List (Option (List Char) × Json)) (field : Field) : Option (Option Json) :=
  match members.filter fun m => m.1 == some field.name.toList with
  | [] =>
    match field.presence with
    | .required => none
    | .optional | .defaulted => some none
  | [m] => some (some m.2)
  | _ => none

def itemsOf? : List Field → List Json → Option (List (Option Json))
  | [], [] => some []
  | [], _ :: _ => none
  | field :: fields, [] =>
    match field.presence with
    | .defaulted => (itemsOf? fields []).map (none :: ·)
    | .required | .optional => none
  | _ :: fields, item :: items => (itemsOf? fields items).map (some item :: ·)

/-- The values of the fields of a record, in the order of the fields. -/
def fields? (fields : List Field) : Json → Option (List (Option Json))
  | .object members =>
    if members.all fun m => m.1.isSome then fields.mapM (memberOf? members) else none
  | .array items => itemsOf? fields items
  | _ => none

def text? : Json → Option (List Char)
  | .string s => s
  | _ => none

def bool? : Json → Option Bool
  | .bool b => some b
  | _ => none

def list? {α : Type} (read : Json → Option α) : Json → Option (List α)
  | .array items => items.mapM read
  | _ => none

/-- A field with a default. -/
def withDefault {α : Type} (default : α) (read : Json → Option α) : Option Json → Option α
  | some j => read j
  | none => some default

def must {α : Type} (read : Json → Option α) (j : Option Json) : Option α := j.bind read

/-- A field that may be missing or `null`. -/
def maybe {α : Type} (read : Json → Option α) : Option Json → Option (Option α)
  | some .null => some none
  | some j => (read j).map some
  | none => some none

/-- A value as one of some named alternatives: its name, or an object of its name and `null`. -/
def alternative? {α : Type} (named : List Char → Option α) : Json → Option α
  | .string s => s.bind named
  | .object [(some key,.null)] => named key
  | _ => none

def get? (key : String) : Json → Option Json
  | .object members => (members.find? fun m => m.1 == some key.toList).map (·.2)
  | _ => none

end Playout.Json
