/-!
# UTF-8

Bytes as text. `decode?` takes well-formed UTF-8 alone. `decodeLossy` replaces
each longest beginning of a character that breaks off by one replacement
character, and each byte that begins no character as well.
-/
namespace Playout.Text.Utf8

/-- The bytes of a character. -/
def encodeChar (c : Char) : List UInt8 :=
  let n := c.toNat
  if n < 0x80 then [n.toUInt8]
  else if n < 0x800 then [(0xC0 + n / 64).toUInt8,(0x80 + n % 64).toUInt8]
  else if n < 0x10000 then
    [(0xE0 + n / 4096).toUInt8,(0x80 + n / 64 % 64).toUInt8,(0x80 + n % 64).toUInt8]
  else
    [(0xF0 + n / 262144).toUInt8,(0x80 + n / 4096 % 64).toUInt8,(0x80 + n / 64 % 64).toUInt8,
      (0x80 + n % 64).toUInt8]

/-- The bytes of a text. -/
def encode (s : List Char) : List UInt8 := s.flatMap encodeChar

def continuation? (b : UInt8) : Option Nat :=
  if 0x80 ≤ b.toNat ∧ b.toNat < 0xC0 then some (b.toNat - 0x80) else none

/-- What a beginning of a byte sequence holds: one character of `length` bytes, or nothing well-formed, of which the
    first `length` bytes are replaced together. -/
inductive Lead where
  | character (value : Char) (length : Nat)
  | broken (length : Nat)

/-- The second byte of a character after `first`, within the bounds that exclude overlong forms, surrogates and numbers
    past the last character. -/
def second? (first : Nat) (b : UInt8) : Option Nat :=
  let n := b.toNat
  let least := if first == 0xE0 then 0xA0 else if first == 0xF0 then 0x90 else 0x80
  let greatest := if first == 0xED then 0x9F else if first == 0xF4 then 0x8F else 0xBF
  if least ≤ n ∧ n ≤ greatest then some (n - 0x80) else none

/-- Reads one character at the start of `b :: rest`. -/
def lead (b : UInt8) (rest : List UInt8) : Lead :=
  let first := b.toNat
  if first < 0x80 then .character (Char.ofNat first) 1
  else if first < 0xC2 then .broken 1
  else if first < 0xE0 then
    match rest with
    | b₂ :: _ =>
      match continuation? b₂ with
      | some x => .character (Char.ofNat ((first - 0xC0) * 64 + x)) 2
      | none => .broken 1
    | [] => .broken 1
  else if first < 0xF0 then
    match rest with
    | b₂ :: rest₂ =>
      match second? first b₂ with
      | none => .broken 1
      | some x =>
        match rest₂ with
        | b₃ :: _ =>
          match continuation? b₃ with
          | some y => .character (Char.ofNat ((first - 0xE0) * 4096 + x * 64 + y)) 3
          | none => .broken 2
        | [] => .broken 2
    | [] => .broken 1
  else if first < 0xF5 then
    match rest with
    | b₂ :: rest₂ =>
      match second? first b₂ with
      | none => .broken 1
      | some x =>
        match rest₂ with
        | b₃ :: rest₃ =>
          match continuation? b₃ with
          | none => .broken 2
          | some y =>
            match rest₃ with
            | b₄ :: _ =>
              match continuation? b₄ with
              | some z => .character (Char.ofNat ((first - 0xF0) * 262144 + x * 4096 + y * 64 + z)) 4
              | none => .broken 3
            | [] => .broken 3
        | [] => .broken 2
    | [] => .broken 1
  else .broken 1

/-- Reads characters after `skip` bytes that belong to the previous one. -/
def decodeFrom? : Nat → List UInt8 → Option (List Char)
  | _, [] => some []
  | skip + 1, _ :: rest => decodeFrom? skip rest
  | 0, b :: rest =>
    match lead b rest with
    | .character c length => (decodeFrom? (length - 1) rest).map (c :: ·)
    | .broken _ => none

def decode? (bytes : List UInt8) : Option (List Char) := decodeFrom? 0 bytes

/-- Reads characters and replacement characters after `skip` bytes of the previous one. -/
def decodeLossyFrom : Nat → List UInt8 → List Char
  | _, [] => []
  | skip + 1, _ :: rest => decodeLossyFrom skip rest
  | 0, b :: rest =>
    match lead b rest with
    | .character c length => c :: decodeLossyFrom (length - 1) rest
    | .broken length => '\uFFFD' :: decodeLossyFrom (length - 1) rest

/-- The text of any bytes, with replacement characters for what is not UTF-8. -/
def decodeLossy (bytes : List UInt8) : List Char := decodeLossyFrom 0 bytes

end Playout.Text.Utf8
