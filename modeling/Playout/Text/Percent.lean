import Playout.Text.Numeral
import Playout.Text.Utf8

/-!
# Percent encoding

A percent sign and two digits of base sixteen stand for a byte; a percent sign
that is not followed by two such digits stands for itself. In form data a plus
sign stands for a space, pairs are separated by ampersands, and bytes that are
not UTF-8 become replacement characters.
-/
namespace Playout.Text.Percent

/-- The bytes that a percent-encoded byte sequence stands for. -/
def decodeBytes : List UInt8 → List UInt8
  | 0x25 :: high :: low :: rest =>
    match hexValue? (Char.ofNat high.toNat), hexValue? (Char.ofNat low.toNat) with
    | some h, some l => (h * 16 + l).toUInt8 :: decodeBytes rest
    | _, _ => 0x25 :: decodeBytes (high :: low :: rest)
  | b :: rest => b :: decodeBytes rest
  | [] => []
termination_by bytes => bytes.length

/-- The text of one percent-encoded path segment, if its bytes are UTF-8. -/
def decodeSegment? (s : List Char) : Option (List Char) := Utf8.decode? (decodeBytes (Utf8.encode s))

def decodeField (s : List Char) : List Char :=
  Utf8.decodeLossy (decodeBytes (Utf8.encode (s.map fun c => if c = '+' then ' ' else c)))

/-- The pairs of form data; empty pairs are skipped and a pair without an equals sign has an empty value. -/
def decodeForm (s : List Char) : List (List Char × List Char) :=
  ((splitAll '&' s).filter (· ≠ [])).map fun pair =>
    match splitFirst? '=' pair with
    | some (key,value) => (decodeField key,decodeField value)
    | none => (decodeField pair,[])

end Playout.Text.Percent
