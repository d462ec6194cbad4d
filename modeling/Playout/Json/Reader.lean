import Playout.Json.Token

/-!
# Reading JSON

A value is built from its tokens by a stack of the arrays and objects that are
still open, so nesting is not bounded.
-/
namespace Playout.Json

/-- An array or object that is still open, with what it holds so far in reverse. -/
inductive Frame where
  | array (items : List Json)
  | object (members : List (Option (List Char) × Json)) (key : Option (List Char))

/-- What may come next. -/
inductive Mode where
  | value
  /-- The first item of an array, or its end. -/
  | firstItem
  | key (members : List (Option (List Char) × Json))
  /-- The first key of an object, or its end. -/
  | firstKey
  | colon (members : List (Option (List Char) × Json)) (key : Option (List Char))
  | after (value : Json)

def Token.atom? : Token → Option Json
  | .null => some .null
  | .bool b => some (.bool b)
  | .number text => some (.number text)
  | .string text => some (.string text)
  | _ => none

def advance (stack : List Frame) (mode : Mode) (token : Token) : Option (List Frame × Mode) :=
  match mode, token with
  | .value, .openArray | .firstItem, .openArray => some (.array [] :: stack,.firstItem)
  | .value, .openObject => some (stack,.firstKey)
  | .firstItem, .openObject => some (stack,.firstKey)
  | .firstItem, .closeArray =>
    match stack with
    | .array items :: stack => some (stack,.after (.array items.reverse))
    | _ => none
  | .firstKey, .closeObject => some (stack,.after (.object []))
  | .firstKey, .string key => some (stack,.colon [] key)
  | .key members, .string key => some (stack,.colon members key)
  | .colon members key, .colon => some (.object members key :: stack,.value)
  | .after v, .comma =>
    match stack with
    | .array items :: stack => some (.array (v :: items) :: stack,.value)
    | .object members key :: stack => some (stack,.key ((key,v) :: members))
    | [] => none
  | .after v, .closeArray =>
    match stack with
    | .array items :: stack => some (stack,.after (.array (v :: items).reverse))
    | _ => none
  | .after v, .closeObject =>
    match stack with
    | .object members key :: stack => some (stack,.after (.object ((key,v) :: members).reverse))
    | _ => none
  | .value, token | .firstItem, token => token.atom?.map fun v => (stack,.after v)
  | _, _ => none

def build (stack : List Frame) (mode : Mode) : List Token → Option Json
  | [] =>
    match stack, mode with
    | [], .after v => some v
    | _, _ => none
  | token :: rest =>
    match advance stack mode token with
    | some (stack,mode) => build stack mode rest
    | none => none

def read? (s : List UInt8) : Option Json := (tokens? s).bind (build [] .value)

end Playout.Json
