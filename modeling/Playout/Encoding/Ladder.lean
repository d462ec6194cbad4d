import Playout.Encoding.Settings

/-!
# Preset ladders

The named settings that every file is offered in: video by height and bitrate,
audio by bitrate, both in ascending order.
-/
namespace Playout.Encoding

/-- A named video setting; its width follows from its height. -/
structure VideoRung where
  name : String
  height : Nat
  bitrate : Nat

/-- A named audio setting. -/
structure AudioRung where
  name : String
  bitrate : Nat

def videoLadder : List VideoRung :=
  [⟨"360p/500kbps",360,500000⟩,⟨"480p/1000kbps",480,1000000⟩,⟨"720p/2000kbps",720,2000000⟩,
    ⟨"720p/4000kbps",720,4000000⟩,⟨"1080p/4000kbps",1080,4000000⟩,
    ⟨"1080p/8000kbps",1080,8000000⟩]

def audioLadder : List AudioRung :=
  [⟨"aac/64kbps",64000⟩,⟨"aac/128kbps",128000⟩,⟨"aac/192kbps",192000⟩]

def videoRung? (name : String) : Option VideoRung := videoLadder.find? (·.name = name)

def audioRung? (name : String) : Option AudioRung := audioLadder.find? (·.name = name)

def isRung (name : String) : Bool := (videoRung? name).isSome || (audioRung? name).isSome

def VideoRung.settings (r : VideoRung) (source : Stream) : Settings :=
  Settings.video preserveAspect r.height r.bitrate source.width source.height

/-- Whether a source is at least as high as the setting. -/
def VideoRung.fits (r : VideoRung) (source : Stream) : Bool := r.height ≤ source.height

def AudioRung.settings (r : AudioRung) : Settings := Settings.audio r.bitrate

end Playout.Encoding
