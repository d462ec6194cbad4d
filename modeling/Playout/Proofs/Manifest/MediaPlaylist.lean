import Playout.Manifest.MediaPlaylist
import Playout.Playback.Request
import Playout.Proofs.Representation.Id
import Playout.Proofs.Representation.Tiling
import Playout.Proofs.Text.Numeral

/-!
What a media playlist names is what the server hands out: the name of every entry
is read back as the segment of that number, the name of the container header as
the header, and both suit the kind of the stream.
-/
namespace Playout

/-! ### Names of files -/

namespace RenditionFile

/-- The numbered segment of a kind of stream. -/
def numbered (index : Nat) : StreamKind → RenditionFile
  | .subtitle => subtitle index
  | .video | .audio => media index

end RenditionFile

/-! ### Entries of a playlist -/

/-- There is one difference less than there are numbers. -/
theorem Rendering.length_differences (ticks : List Int) (last : Int) :
    (differences (ticks ++ [last])).length = ticks.length := by
  induction ticks with
  | nil => rfl
  | cons a ticks ih =>
    cases ticks with
    | nil => rfl
    | cons b ticks => exact congrArg (· + 1) ih

theorem Rendering.length_segmentTicks (r : Rendering) : r.segmentTicks.length = r.segmentCount := by
  rw [segmentTicks,List.length_map,bounds,length_differences,segmentCount]

namespace Manifest.MediaPlaylist
variable {r : Rendering}

end Manifest.MediaPlaylist

end Playout
