import Playout.Codec

/-!
# H.264 levels

A level limits the size of a picture, counted in blocks of sixteen by sixteen
pixels, and the bitrate. A stream is labelled with the least level that admits
it.
-/
namespace Playout.Encoding

/-- A level with its greatest number of blocks and its greatest bitrate. -/
structure Level where
  number : Nat
  maxBlocks : Nat
  maxBitrate : Nat

def levels : List Level :=
  [⟨10,99,64000⟩,⟨11,396,192000⟩,⟨12,396,384000⟩,⟨13,396,768000⟩,
    ⟨20,396,2000000⟩,⟨21,792,4000000⟩,⟨22,1620,4000000⟩,⟨30,1620,10000000⟩,
    ⟨31,3600,14000000⟩,⟨32,5120,20000000⟩,⟨40,8192,20000000⟩,⟨41,8192,50000000⟩,
    ⟨42,8704,50000000⟩,⟨50,22080,135000000⟩,⟨51,36864,240000000⟩,
    ⟨52,36864,240000000⟩]

def highestLevel : Nat := 52

def blocks (width height : Nat) : Nat := Binary64.ceilDiv width 16 * Binary64.ceilDiv height 16

/-- Whether a level admits pictures of some number of blocks at a bitrate. -/
def Level.admits (l : Level) (blocks bitrate : Nat) : Bool :=
  blocks ≤ l.maxBlocks && bitrate ≤ l.maxBitrate

/-- The least level that admits a picture size and a bitrate, else the highest one. -/
def h264Level (width height bitrate : Nat) : Nat :=
  match levels.find? fun l => l.admits (blocks width height) bitrate with
  | some l => l.number
  | none => highestLevel

def h264Codec (width height bitrate : Nat) : String :=
  Codec.h264 (0x64,0x00) (h264Level width height bitrate)

end Playout.Encoding
