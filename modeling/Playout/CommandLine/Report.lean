import Playout.Config.Basic
import Playout.Json.Pretty
import Playout.Locator
import Playout.Probe.Basic
import Playout.Stream.Json
import Playout.Tool.Lookup

/-!
# What the program prints

The lines about a configuration, about the streams of a file and about the tools.
-/
namespace Playout.CommandLine

def unlines (lines : List String) : String := String.join (lines.map (· ++ "\n"))

def programName : String := "reelforge"

def version : String := "0.1.0"

def versionLine : String := programName ++ " " ++ version

def configLines (c : Config) : List String :=
  let t := c.transcode
  let seconds := String.ofList (Binary64.shortest t.segmentSeconds)
  ["  Server: " ++ c.server.host ++ ":" ++ toString c.server.port,
    "  Callback base: " ++ c.server.callbackBase,
    "  Library root: " ++ c.library.root,
    "  Session output: " ++ t.directory,
    "  Segment duration: " ++ seconds ++ "s",
    "  Transmux run length: " ++ toString t.maxCopySegments ++ " segments",
    "  Reuse window: " ++ toString t.reuseWindow ++ " segments",
    "  Throttle ahead: " ++ toString t.throttleAhead ++ " segments",
    "  Segment timeout: " ++ toString t.segmentTimeoutSeconds ++ "s",
    "  Idle timeout: " ++ toString t.idleTimeoutSeconds ++ "s"]

/-- A number with at least two digits. -/
def twoDigits (n : Nat) : String := if n < 10 then "0" ++ toString n else toString n

/-- A length of time in hours, minutes and whole seconds. -/
def clockText (seconds : Float) : String :=
  let whole := (Binary64.toRange .truncate 0 max64 seconds).toNat
  twoDigits (whole / 3600) ++ ":" ++ twoDigits (whole / 60 % 60) ++ ":" ++ twoDigits (whole % 60)

def streamLine (s : Stream) : String :=
  let size := if 0 < s.width then
      ", " ++ toString s.width ++ "x" ++ toString s.height ++ " @ " ++ s.frameRate.text
    else ""
  let language := match s.language with
    | some language => " (" ++ language ++ ")"
    | none => ""
  "  [" ++ toString s.index ++ "] " ++ s.kind.name ++ " " ++ s.codec ++ " (" ++ s.codecName ++ ") " ++
    toString s.bitrate ++ " bps" ++ size ++ language ++ (if s.isDefault then " [default]" else "")

/-- The lines about a file, with its locator if it is in the library. -/
def fileLines (file : String) (c : Probe.Container) (locator : Option Locator) : List String :=
  ["File: " ++ file,"Container: " ++ c.format.name] ++
  (match c.format.size with
    | some size => ["Size: " ++ toString size ++ " bytes"]
    | none => []) ++
  (match c.format.duration with
    | some seconds => ["Duration: " ++ clockText seconds]
    | none => []) ++
  (match locator with
    | some l => ["Locator: " ++ l.text]
    | none => []) ++
  ["","Streams: " ++ toString c.streams.length] ++ c.streams.map streamLine

def streamsText (streams : List Stream) : String :=
  String.ofList (Json.pretty 0 (.array (streams.map fun s => s.toJson (.float s.duration))))

def toolLine (t : Tool.Info) : String :=
  let firstLine := fun (s : String) => String.ofList (((Text.lines s.toList).head?).getD [])
  (if t.isAvailable then "✓ " else "✗ ") ++ t.name ++
  (match t.version with
    | some version => " (" ++ firstLine version ++ ")"
    | none => "") ++
  (match t.path with
    | some path => " - " ++ path
    | none => "")

def toolLines (tools : List Tool.Info) : List String :=
  tools.map toolLine ++ ["",
    if tools.all (·.isAvailable) then "All required tools are available!"
    else "Some tools are missing. Segments cannot be produced without them."]

end Playout.CommandLine
