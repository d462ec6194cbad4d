import Playout.Representation.Basic
import Playout.Text.Blank

/-!
# Playable codecs

The codecs that a player declares it can decode, by their full string or by
their family, the part before the first point. A player that declares none can
play everything.
-/
namespace Playout

/-- The declared codecs. -/
structure Playable where
  codecs : List String
  deriving Repr, Inhabited

namespace Playable

def ofList (codecs : List String) : Playable := ⟨codecs.filter (· ≠ "")⟩

def isUnrestricted (p : Playable) : Bool := p.codecs.isEmpty

def family (codec : String) : String := String.ofList (codec.toList.takeWhile (· ≠ '.'))

def contains (p : Playable) (codec : String) : Bool :=
  p.isUnrestricted || p.codecs.contains codec || p.codecs.contains (family codec)

def queryKey : List Char := "playableCodecs".toList

/-- The items of one value: separated by commas, without blanks around them, and not empty. -/
def items (value : List Char) : List (List Char) :=
  ((Text.splitAll ',' value).map Text.trim).filter (· ≠ [])

def ofQuery (query : List (List Char × List Char)) : Playable :=
  .ofList (((query.filter fun q => q.1 == queryKey).flatMap fun q => items q.2).map String.ofList)

def plays (p : Playable) (r : Rendering) : Bool := p.contains r.representation.codec

def filter (p : Playable) (rs : List Rendering) : List Rendering := rs.filter p.plays

end Playable

/-- The last of the elements with the greatest rank. -/
def lastGreatest? {α : Type} (rank : α → Nat) : List α → Option α
  | [] => none
  | a :: rest =>
    match lastGreatest? rank rest with
    | none => some a
    | some b => if rank b < rank a then some a else some b

/-- The first of the elements with the least rank. -/
def firstLeast? {α : Type} (rank : α → Nat) : List α → Option α
  | [] => none
  | a :: rest =>
    match firstLeast? rank rest with
    | none => some a
    | some b => if rank b < rank a then some b else some a

def Rendering.bitrate (r : Rendering) : Nat := r.representation.bitrate

/-- The rendering that is delivered of one stream: the copy if it can be played, else the playable encoding of greatest
    bitrate not above the source's, else the one of least bitrate. -/
def chooseBest (p : Playable) (rs : List Rendering) : Option Rendering :=
  let playable := p.filter rs
  match playable.find? fun r => r.representation.isCopy with
  | some copy => some copy
  | none =>
    match lastGreatest? Rendering.bitrate (playable.filter fun r => r.bitrate ≤ r.stream.bitrate) with
    | some best => some best
    | none => firstLeast? Rendering.bitrate playable

/-- The renderings that are offered of one stream: the best one, and every playable encoding of lower bitrate, in
    descending order. -/
def selectLadder (p : Playable) (rs : List Rendering) : List Rendering :=
  match chooseBest p rs with
  | none => []
  | some best =>
    best :: ((p.filter rs).filter fun r => !r.representation.isCopy && r.bitrate < best.bitrate).mergeSort
      fun a b => b.bitrate ≤ a.bitrate

end Playout
