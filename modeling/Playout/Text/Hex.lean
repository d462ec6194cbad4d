import Playout.Text.Numeral

/-!
# Bytes in base sixteen

Two lower-case digits a byte; either case is read.
-/
namespace Playout.Text.Hex

/-- The digits of some bytes. -/
def encode (bytes : List UInt8) : List Char := bytes.flatMap fun b => hexadecimal 2 b.toNat

/-- The bytes of an even number of digits. -/
def decode? : List Char → Option (List UInt8)
  | [] => some []
  | [_] => none
  | high :: low :: rest => do
    let high ← hexValue? high
    let low ← hexValue? low
    let bytes ← decode? rest
    some ((high * 16 + low).toUInt8 :: bytes)

end Playout.Text.Hex
