import Playout.Stream.Basic
import Playout.Text.LowerCase
import Playout.Text.Numeral

/-!
# Codec strings

What players are told about the codec of a stream, from what the inspection
reports. The name of a codec without a known string stands for itself, in lower
case, so that players' capabilities can still be matched against it.
-/
namespace Playout.Codec

def lower (s : String) : String := String.ofList (Text.LowerCase.lower s.toList)

def levelOr (fallback : Nat) (level : Option Int) : Nat :=
  match level with
  | some l => if 0 < l then l.toNat else fallback
  | none => fallback

/-- The profile number and the constraint flags of an H.264 profile, which is High unless it is known. -/
def h264Profile (profile : String) : Nat × Nat :=
  match lower profile with
  | "constrained baseline" => (0x42,0xe0)
  | "baseline" => (0x42,0x00)
  | "main" => (0x4d,0x40)
  | "extended" => (0x58,0x00)
  | "high 10" => (0x6e,0x00)
  | "high 4:2:2" => (0x7a,0x00)
  | "high 4:4:4 predictive" => (0xf4,0x00)
  | _ => (0x64,0x00)

/-- A number as two digits of base sixteen, or more if it needs them. -/
def byteText (n : Nat) : String := String.ofList (Text.hexadecimal 2 n)

def h264 (profile : Nat × Nat) (level : Nat) : String :=
  "avc1." ++ byteText profile.1 ++ byteText profile.2 ++ byteText level

def video (name : String) (profile : Option String) (level : Option Int) : String :=
  match lower name with
  | "h264" | "avc" | "avc1" => h264 (h264Profile (profile.getD "High")) (levelOr 40 level)
  | "h265" | "hevc" | "hvc1" =>
    let tier := if profile.map lower = some "main 10" then "hvc1.2.4.L" else "hvc1.1.6.L"
    tier ++ toString (levelOr 93 level) ++ ".B0"
  | "av1" => "av01.0.08M.08"
  | "vp9" => "vp09.00.10.08"
  | other => other

def audio (name : String) (profile : Option String) : String :=
  match lower name with
  | "aac" =>
    match profile.map lower with
    | some "he-aac" => "mp4a.40.5"
    | some "he-aacv2" => "mp4a.40.29"
    | _ => "mp4a.40.2"
  | "ac3" => "ac-3"
  | "eac3" | "e-ac3" => "ec-3"
  | "opus" => "Opus"
  | "flac" => "fLaC"
  | "mp3" => "mp4a.40.34"
  | other => other

/-- The string of a stream. Subtitles are always delivered as WebVTT. -/
def text (kind : StreamKind) (name : String) (profile : Option String) (level : Option Int) : String :=
  match kind with
  | .video => video name profile level
  | .audio => audio name profile
  | .subtitle => "wvtt"

end Playout.Codec
