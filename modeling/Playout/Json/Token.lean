import Playout.Json.Value
import Playout.Text.Utf8

/-!
# JSON tokens

The lexical grammar of JSON over bytes. A string is read even if it denotes no
text; its controls must be escaped and its escapes well-formed. A number has no
leading zeros and digits on both sides of its point.
-/
namespace Playout.Json

/-- A lexical element. -/
inductive Token where
  | openObject
  | closeObject
  | openArray
  | closeArray
  | comma
  | colon
  | null
  | bool (value : Bool)
  | number (text : List Char)
  | string (text : Option (List Char))

/-- A part of a string: a byte that stands for itself, or an escaped UTF-16 unit. -/
inductive Piece where
  | byte (b : UInt8)
  | unit (n : Nat)

/-- The bytes that pieces denote; a surrogate is only one half of an escaped pair. -/
def Piece.bytes? : List Piece → Option (List UInt8)
  | [] => some []
  | .byte b :: rest => (bytes? rest).map (b :: ·)
  | .unit n :: rest =>
    if 0xD800 ≤ n ∧ n < 0xDC00 then
      match rest with
      | .unit m :: rest' =>
        if 0xDC00 ≤ m ∧ m < 0xE000 then
          (bytes? rest').map
            (Text.Utf8.encodeChar (Char.ofNat (0x10000 + (n - 0xD800) * 0x400 + (m - 0xDC00))) ++ ·)
        else none
      | _ => none
    else if 0xDC00 ≤ n ∧ n < 0xE000 then none
    else (bytes? rest).map (Text.Utf8.encodeChar (Char.ofNat n) ++ ·)

def Piece.text? (pieces : List Piece) : Option (List Char) := (bytes? pieces).bind Text.Utf8.decode?

def unit? (a b c d : UInt8) : Option Nat := do
  let digit := fun (x : UInt8) => Text.hexValue? (Char.ofNat x.toNat)
  let a ← digit a
  let b ← digit b
  let c ← digit c
  let d ← digit d
  some (((a * 16 + b) * 16 + c) * 16 + d)

def escape? (b : UInt8) : Option UInt8 :=
  match Char.ofNat b.toNat with
  | '"' => some 0x22
  | '\\' => some 0x5C
  | '/' => some 0x2F
  | 'b' => some 0x08
  | 'f' => some 0x0C
  | 'n' => some 0x0A
  | 'r' => some 0x0D
  | 't' => some 0x09
  | _ => none

/-- The rest of a string after its opening quote, and what follows its closing quote. -/
def lexString : List UInt8 → Option (List Piece × List UInt8)
  | [] => none
  | 0x22 :: rest => some ([],rest)
  | 0x5C :: 0x75 :: a :: b :: c :: d :: rest => do
    let n ← unit? a b c d
    let (pieces,rest) ← lexString rest
    some (.unit n :: pieces,rest)
  | 0x5C :: e :: rest => do
    let b ← escape? e
    let (pieces,rest) ← lexString rest
    some (.byte b :: pieces,rest)
  | b :: rest =>
    if b < 0x20 ∨ b = 0x5C then none
    else do
      let (pieces,rest) ← lexString rest
      some (.byte b :: pieces,rest)

def isDigit (b : UInt8) : Bool := 0x30 ≤ b && b ≤ 0x39

def lexDigits? (s : List UInt8) : Option (List UInt8 × List UInt8) :=
  match s.span isDigit with
  | ([],_) => none
  | (digits,rest) => some (digits,rest)

/-- The whole part of a number: a zero alone, or digits that do not begin with one. -/
def lexWhole? (s : List UInt8) : Option (List UInt8 × List UInt8) :=
  match s with
  | 0x30 :: rest => some ([0x30],rest)
  | _ => lexDigits? s

def lexFraction? (s : List UInt8) : Option (List UInt8 × List UInt8) :=
  match s with
  | 0x2E :: rest => (lexDigits? rest).map fun (digits,rest) => (0x2E :: digits,rest)
  | _ => some ([],s)

def lexExponent? (s : List UInt8) : Option (List UInt8 × List UInt8) :=
  match s with
  | e :: rest =>
    if e = 0x65 ∨ e = 0x45 then
      match rest with
      | sign :: rest' =>
        if sign = 0x2B ∨ sign = 0x2D then
          (lexDigits? rest').map fun (digits,rest) => (e :: sign :: digits,rest)
        else (lexDigits? rest).map fun (digits,rest) => (e :: digits,rest)
      | [] => none
    else some ([],s)
  | [] => some ([],s)

def lexUnsigned? (s : List UInt8) : Option (List UInt8 × List UInt8) := do
  let (whole,rest) ← lexWhole? s
  let (fraction,rest) ← lexFraction? rest
  let (exponent,rest) ← lexExponent? rest
  some (whole ++ fraction ++ exponent,rest)

def lexNumber? (s : List UInt8) : Option (List UInt8 × List UInt8) :=
  match s with
  | 0x2D :: rest => (lexUnsigned? rest).map fun (digits,rest) => (0x2D :: digits,rest)
  | _ => lexUnsigned? s

def isSpace (b : UInt8) : Bool := b == 0x20 || b == 0x0A || b == 0x0D || b == 0x09

/-- The first token of a non-empty text that does not begin with a space. -/
def lexToken? (b : UInt8) (rest : List UInt8) : Option (Token × List UInt8) :=
  match Char.ofNat b.toNat with
  | '\x7b' => some (.openObject,rest)
  | '\x7d' => some (.closeObject,rest)
  | '[' => some (.openArray,rest)
  | ']' => some (.closeArray,rest)
  | ',' => some (.comma,rest)
  | ':' => some (.colon,rest)
  | '"' => (lexString rest).map fun (pieces,rest) => (.string (Piece.text? pieces),rest)
  | 'n' =>
    match rest with
    | 0x75 :: 0x6C :: 0x6C :: rest => some (.null,rest)
    | _ => none
  | 't' =>
    match rest with
    | 0x72 :: 0x75 :: 0x65 :: rest => some (.bool true,rest)
    | _ => none
  | 'f' =>
    match rest with
    | 0x61 :: 0x6C :: 0x73 :: 0x65 :: rest => some (.bool false,rest)
    | _ => none
  | _ =>
    (lexNumber? (b :: rest)).map fun (digits,rest) =>
      (.number (digits.map fun d => Char.ofNat d.toNat),rest)

/-- The tokens of a text, most recent first in `done`. The measure is the number of bytes left. -/
def lexAll : Nat → List Token → List UInt8 → Option (List Token)
  | _, done, [] => some done.reverse
  | 0, _, _ :: _ => none
  | fuel + 1, done, b :: rest =>
    if isSpace b then lexAll fuel done rest
    else
      match lexToken? b rest with
      | some (token,rest) => lexAll fuel (token :: done) rest
      | none => none

/-- The tokens of a text. Every token takes at least one byte, so its length is measure enough. -/
def tokens? (s : List UInt8) : Option (List Token) := lexAll s.length [] s

end Playout.Json
