import Playout.Manifest.MediaPlaylist

/-!
# Names of segment files

An encoder run writes its segments into its own directory and numbers them from
zero. The names are made by the encoder from a pattern and read back from the
directory.
-/
namespace Playout.Encoder

def initName : String := Manifest.MediaPlaylist.initName

def nameStart : String := "stream0_"

def extension (kind : StreamKind) : String := Manifest.MediaPlaylist.extension kind

def segmentName (n : Nat) (kind : StreamKind) : String :=
  nameStart ++ toString n ++ "." ++ extension kind

/-- What the encoder makes the names from, with the number of a segment in the place of `%d`. -/
def segmentPattern : StreamKind → String
  | .subtitle => nameStart ++ "%d.vtt"
  | .video | .audio => nameStart ++ "%d.m4s"

def segmentNumber? (ext name : List Char) : Option Nat := do
  let rest ← Text.dropStart? nameStart.toList name
  let rest ← Text.dropEnd? ext rest
  let digits ← Text.dropEnd? ['.'] rest
  (Text.digits? digits).filter (· ≤ max32)

end Playout.Encoder
