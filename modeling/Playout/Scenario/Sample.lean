import Playout.Catalogue.Library

/-!
# The sample movie

What is found in a file about which a scenario says nothing else: five minutes of
video with a keyframe every two seconds, one audio track and one of subtitles.
-/
namespace Playout.Scenario.Sample

def track (index : Nat) (kind codecName : String) : Probe.Track where
  index := index
  kind := kind
  codecName := some codecName
  profile := none
  level := none
  width := none
  height := none
  averageFrameRate := none
  baseFrameRate := none
  timeBase := some "1/1000"
  durationTicks := none
  duration := none
  bitrate := none
  channels := none
  language := some "eng"
  title := none
  isDefault := false
  isCover := false

def video : Probe.Track :=
  { track 0 "video" "h264" with
    profile := some "High"
    level := some 40
    width := some 1920
    height := some 1080
    averageFrameRate := some "24/1"
    baseFrameRate := some "24/1"
    bitrate := some 6000000
    language := none
    isDefault := true }

def audio : Probe.Track :=
  { track 1 "audio" "aac" with
    profile := some "LC"
    bitrate := some 192000
    channels := some 2
    isDefault := true }

def container : Probe.Container :=
  ⟨⟨"matroska,webm",some 300.0,none,none⟩,[video,audio,track 2 "subtitle" "subrip"]⟩

def keyframes : List Int := (List.range 150).map fun n => (n * 2000 : Nat)

def file : Catalogue.MediaFile := ⟨4096,1000000,.ok container,.ok keyframes⟩

end Playout.Scenario.Sample
