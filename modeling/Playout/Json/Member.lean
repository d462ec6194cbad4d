import Playout.Json.Record
import Playout.Text.Hex
import Playout.Text.Utf8

/-!
# Members of objects

Members of an object by their names, read as values of some kind. A member that
is missing reads like `null`.
-/
namespace Playout.Json

def member (j : Json) (name : String) : Json := (j.get? name).getD .null

/-- The member of a name, if it is there and not `null`. -/
def present? (j : Json) (name : String) : Option Json :=
  match j.member name with
  | .null => none
  | value => some value

def string? (j : Json) : Option String := j.text?.map String.ofList

/-- A value as a whole number of at most sixty-four bits and a sign. -/
def whole? : Json → Option Int := int? (-(max64 + 1)) (max64 + 1)

def natural? : Json → Option Nat := nat? (max64 + 1)

def stringAt? (j : Json) (name : String) : Option String := (j.member name).string?

def wholeAt? (j : Json) (name : String) : Option Int := (j.member name).whole?

def naturalAt? (j : Json) (name : String) : Option Nat := (j.member name).natural?

/-- Whether a member is `true`. -/
def isSet (j : Json) (name : String) : Bool := (j.member name).bool?.getD false

def listAt? {α : Type} (read : Json → Option α) (j : Json) (name : String) : Option (List α) :=
  (j.member name).list? read

def optionalAt? {α : Type} (read : Json → Option α) (j : Json) (name : String) : Option (Option α) :=
  match j.present? name with
  | some value => (read value).map some
  | none => some none

/-- A value as bytes: those of a text, or of an object with a text or with digits of base sixteen. -/
def bytes? : Json → Option (List UInt8)
  | .string (some text) => some (Text.Utf8.encode text)
  | j =>
    match j.stringAt? "text", j.stringAt? "hex" with
    | some text, _ => some (Text.Utf8.encode text.toList)
    | none, some digits => Text.Hex.decode? digits.toList
    | none, none => none

end Playout.Json
