/-!
# Fragments of MP4 files

A file is a sequence of boxes, each a length, a type of four bytes and a
payload. Encoder runs number their fragments from one; before a segment is
served its fragments are renumbered, so that the numbers go on from one run to
the next.
-/
namespace Playout.Fragment

/-- The header of a box. -/
structure Box where
  /-- The four bytes of the type. -/
  type : List UInt8
  offset : Nat
  size : Nat
  headerSize : Nat
  deriving DecidableEq, Repr, Inhabited

namespace Box

def dataOffset (b : Box) : Nat := b.offset + b.headerSize

def next (b : Box) : Nat := b.offset + b.size

end Box

/-- The number that big-endian bytes denote. -/
def bigEndian (bytes : List UInt8) : Nat := bytes.foldl (fun n b => n * 256 + b.toNat) 0

/-- Some bytes of a file from an offset on; fewer if the file ends before. -/
def slice (file : Array UInt8) (offset count : Nat) : List UInt8 :=
  (file.extract offset (offset + count)).toList

/-- The four bytes of a fragment's box. -/
def moof : List UInt8 := [0x6D,0x6F,0x6F,0x66]

/-- The four bytes of a fragment header's box. -/
def mfhd : List UInt8 := [0x6D,0x66,0x68,0x64]

/-- The length that a header gives and the length of the header. Zero means everything up to `limit`, and one that a
    length of sixty-four bits follows. -/
def extent? (file : Array UInt8) (offset limit : Nat) : Option (Nat × Nat) :=
  match bigEndian (slice file offset 4) with
  | 0 => some (limit - offset,8)
  | 1 =>
    if limit < offset + 16 then none else some (bigEndian (slice file (offset + 8) 8),16)
  | size => some (size,8)

/-- The box at an offset, none if its header is cut off, gives less than its own length, or more than is left before
    `limit`. -/
def boxAt? (file : Array UInt8) (offset limit : Nat) : Option Box :=
  if limit < offset + 8 ∨ file.size < limit then none
  else
    match extent? file offset limit with
    | none => none
    | some (size,headerSize) =>
      if size < headerSize ∨ limit < offset + size then none
      else some ⟨slice file (offset + 4) 4,offset,size,headerSize⟩

/-- The boxes from an offset on, at most `fuel` of them. -/
def walk (file : Array UInt8) (limit : Nat) : Nat → Nat → List Box
  | 0, _ => []
  | fuel + 1, offset =>
    match boxAt? file offset limit with
    | none => []
    | some b => b :: walk file limit fuel b.next

/-- The boxes between two offsets, up to the first malformed header. Each takes eight bytes at least. -/
def boxes (file : Array UInt8) (start limit : Nat) : List Box :=
  walk file limit ((limit - start) / 8) start

def header? (file : Array UInt8) (fragment : Box) : Option Box :=
  (boxes file fragment.dataOffset fragment.next).find? fun b => b.type == mfhd

/-- Where the sequence numbers of the fragments stand: after the version and flags in the header of each one that is
    long enough. -/
def sequenceFields (file : Array UInt8) : List Nat :=
  ((((boxes file 0 file.size).filter fun b => b.type == moof).filterMap (header? file)).filter
    fun h => h.headerSize + 8 ≤ h.size).map fun h => h.dataOffset + 4

def sequenceNumbers (file : Array UInt8) : List Nat :=
  (sequenceFields file).map fun field => bigEndian (slice file field 4)

/-- The four big-endian bytes of a number modulo `2 ^ 32`. -/
def fourBytes (n : Nat) : List UInt8 :=
  [(n / Nat.pow 2 24).toUInt8,(n / Nat.pow 2 16).toUInt8,(n / Nat.pow 2 8).toUInt8,n.toUInt8]

/-- A file with some bytes written over. -/
def overwrite (file : Array UInt8) (offset : Nat) : List UInt8 → Array UInt8
  | [] => file
  | b :: bytes => overwrite (file.setIfInBounds offset b) (offset + 1) bytes

/-- Writes consecutive numbers, modulo `2 ^ 32`, to some fields. -/
def writeNumbers (first : Nat) : List Nat → Array UInt8 → Array UInt8
  | [], file => file
  | field :: fields, file =>
    writeNumbers (first + 1) fields (overwrite file field (fourBytes (first % Nat.pow 2 32)))

/-- A file with its fragments numbered `first`, `first + 1` and so on, and how many numbers that are. -/
def renumber (first : Nat) (file : Array UInt8) : Array UInt8 × Nat :=
  let fields := sequenceFields file
  (writeNumbers first fields file,fields.length)

end Playout.Fragment
