import Playout.Binary64.Shortest
import Playout.Json.Value

/-!
# JSON for people

Values over several lines, two spaces for each level of nesting, and
floating-point numbers in the fewest digits that read back.
-/
namespace Playout

/-- How a decimal is written: positionally between two exponents of its first digit, and otherwise with an exponent. -/
structure DecimalFormat where
  leastPositional : Int
  greatestPositional : Int

/-- Numbers in JSON have their point up to sixteen digits after the first, and up to four zeros behind it before the
    first. -/
def Json.decimalFormat : DecimalFormat := ⟨-5,15⟩

/-- A decimal in a format. A number that is whole ends with a point and a zero. -/
def DecimalFormat.write (f : DecimalFormat) (d : Binary64.Decimal) : List Char :=
  let digits := Text.decimal d.digits
  let first : Int := d.exponent + digits.length - 1
  if f.leastPositional ≤ first ∧ first ≤ f.greatestPositional then
    if 0 ≤ d.exponent then d.positional ++ ['.','0'] else d.positional
  else
    let exponent := (if first < 0 then ['-'] else []) ++ Text.decimal first.natAbs
    let fraction := if digits.length = 1 then [] else '.' :: digits.drop 1
    digits.take 1 ++ fraction ++ 'e' :: exponent

namespace Json

/-- A floating-point number; one that is not finite is `null`. -/
def float (x : Float) : Json :=
  match Binary64.value x with
  | .notANumber | .infinite _ => .null
  | .finite exact =>
    let text :=
      if exact.mantissa = 0 then ['0','.','0'] else decimalFormat.write (exact.shortest.strip 800)
    .number (if exact.negative then '-' :: text else text)

/-- The end of a line, and the space before what follows at a depth. -/
def newLine (depth : Nat) : List Char := '\n' :: List.replicate (2 * depth) ' '

mutual
def pretty (depth : Nat) : Json → List Char
  | .array (item :: items) => '[' :: prettyItems (depth + 1) (item :: items) ++ newLine depth ++ [']']
  | .object (member :: members) =>
    '\x7b' :: prettyMembers (depth + 1) (member :: members) ++ newLine depth ++ ['\x7d']
  | .array [] => ['[',']']
  | .object [] => ['\x7b','\x7d']
  | .null => "null".toList
  | .bool b => render (.bool b)
  | .number text => text
  | .string s => renderString s

def prettyItems (depth : Nat) : List Json → List Char
  | [] => []
  | [item] => newLine depth ++ pretty depth item
  | item :: items => newLine depth ++ pretty depth item ++ ',' :: prettyItems depth items

def prettyMembers (depth : Nat) : List (Option (List Char) × Json) → List Char
  | [] => []
  | [(key,value)] => newLine depth ++ renderString key ++ ':' :: ' ' :: pretty depth value
  | (key,value) :: members =>
    newLine depth ++ renderString key ++ ':' :: ' ' :: pretty depth value ++ ',' :: prettyMembers depth members
end

end Json
end Playout
