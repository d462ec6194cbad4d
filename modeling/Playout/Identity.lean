import Playout.Error
import Playout.Text.Numeral
import Playout.Text.Utf8

/-!
# Identities of players and runs

A player chooses its own id from a small alphabet. A run of the encoder has a
random one of 128 bits, written in five groups of hexadecimal digits.
-/
namespace Playout

/-- The id that a player sends with each of its requests. -/
structure PlayerId where
  text : String
  deriving DecidableEq, Repr, Inhabited

namespace PlayerId

/-- The greatest number of bytes of an id. -/
def maxBytes : Nat := 128

def allows (c : Char) : Bool :=
  ('a' ≤ c && c ≤ 'z') || ('A' ≤ c && c ≤ 'Z') || ('0' ≤ c && c ≤ '9') || c == '-' || c == '_'

def parse (s : String) : Result PlayerId :=
  let bytes := (Text.Utf8.encode s.toList).length
  if bytes = 0 ∨ maxBytes < bytes then
    .error (.validation ("player session id must be 1..=" ++ toString maxBytes ++ " characters"))
  else if s.toList.all allows then .ok ⟨s⟩
  else .error (.validation ("invalid player session id: " ++ s))

end PlayerId

/-- The id of one run of the encoder. -/
structure RunId where
  number : BitVec 128
  deriving DecidableEq, Repr, Inhabited

namespace RunId

def groups : List Nat := [8,4,4,4,12]

def hyphenate : List Nat → List Char → List Char
  | [], _ => []
  | [n], digits => digits.take n
  | n :: ns, digits => digits.take n ++ '-' :: hyphenate ns (digits.drop n)

def text (id : RunId) : String :=
  String.ofList (hyphenate groups (Text.hexadecimal 32 id.number.toNat))

def ungroup? : List Nat → List Char → Option (List Char)
  | [], s => if s = [] then some [] else none
  | [n], s => if s.length = n then some s else none
  | n :: ns, s =>
    match s.drop n with
    | '-' :: rest => (ungroup? ns rest).map (s.take n ++ ·)
    | _ => none

def number? (digits : List Char) : Option (BitVec 128) :=
  if digits.length = 32 then
    (digits.foldlM (fun n c => (Text.hexValue? c).map fun d => 16 * n + d) 0).map (BitVec.ofNat 128)
  else none

/-- The digits of an id: plain, in groups, in groups after `urn:uuid:`, or in groups between braces. -/
def digits? (s : List Char) : Option (List Char) :=
  if s.length = 32 then some s
  else
    match Text.dropStart? "urn:uuid:".toList s with
    | some rest => ungroup? groups rest
    | none =>
      match s with
      | '\x7b' :: rest => (Text.dropEnd? ['\x7d'] rest).bind (ungroup? groups)
      | _ => ungroup? groups s

def parse (s : String) : Result RunId :=
  match (digits? s.toList).bind number? with
  | some n => .ok ⟨n⟩
  | none => .error (.validation ("invalid transcode session id " ++ s ++ ": not a UUID"))

end RunId
end Playout
