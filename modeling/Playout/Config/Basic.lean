import Playout.Binary64.Shortest
import Playout.Text.Split

/-!
# Configuration

The settings of the server with their defaults, the settings that the session
table takes from them, and the values that are refused.
-/
namespace Playout

/-- Where the server listens and how the encoder reaches it. -/
structure Config.Server where
  host : String := "0.0.0.0"
  port : Nat := 8080
  publicUrl : Option String := none
  deriving Inhabited

/-- Where the media files are. -/
structure Config.Library where
  root : String := "."
  deriving Inhabited

/-- Where the tools are, if not found by name. -/
structure Config.Tools where
  ffmpeg : Option String := none
  ffprobe : Option String := none
  deriving Inhabited

/-- How segments are made. -/
structure Config.Transcode where
  directory : String := "/tmp/reelforge"
  segmentSeconds : Float := 5.0
  maxCopySegments : Nat := 12
  reuseWindow : Nat := 5
  throttleAhead : Nat := 8
  segmentTimeoutSeconds : Nat := 20
  shutdownTimeoutSeconds : Nat := 15
  idleTimeoutSeconds : Nat := 120
  cleanupIntervalSeconds : Nat := 30
  graceSeconds : Nat := 5
  handoffMillis : Nat := 1000
  deriving Inhabited

/-- How many representations are kept, and for how long. -/
structure Config.Cache where
  maxEntries : Nat := 256
  ttlSeconds : Nat := 3600
  deriving Inhabited

/-- The configuration of a server. -/
structure Config where
  server : Config.Server := {}
  library : Config.Library := {}
  tools : Config.Tools := {}
  transcode : Config.Transcode := {}
  cache : Config.Cache := {}
  deriving Inhabited

namespace Config

/-- The base of the URLs that the encoder calls, without a slash at its end. -/
def Server.callbackBase (s : Server) : String :=
  match s.publicUrl with
  | some url => String.ofList ((url.toList.reverse.dropWhile (· == '/')).reverse)
  | none => "http://127.0.0.1:" ++ toString s.port

/-- The time between two rounds of cleaning up, at least a second. -/
def Transcode.cleanupInterval (t : Transcode) : Nat := max t.cleanupIntervalSeconds 1

/-- What a configuration is refused for. -/
inductive Fault where
  | portIsZero
  | segmentNotPositive (seconds : Float)
  | noCopySegments
  | noReuseWindow

def Fault.message : Fault → String
  | portIsZero => "Server port cannot be 0"
  | segmentNotPositive seconds =>
    "transcode.segment_duration_secs must be positive, got " ++ String.ofList (Binary64.shortest seconds)
  | noCopySegments => "transcode.max_transmux_segments must be positive"
  | noReuseWindow => "transcode.reuse_window must be at least 1"

def fault? (c : Config) : Option Fault :=
  if c.server.port = 0 then some .portIsZero
  else if c.transcode.segmentSeconds.isNaN || c.transcode.segmentSeconds ≤ 0.0 then
    some (.segmentNotPositive c.transcode.segmentSeconds)
  else if c.transcode.maxCopySegments = 0 then some .noCopySegments
  else if c.transcode.reuseWindow = 0 then some .noReuseWindow
  else none

end Config

/-- The rules of the session table. -/
structure Policy where
  outputRoot : String
  segmentSeconds : Float
  maxCopySegments : Nat
  reuseWindow : Nat
  throttleAhead : Nat
  /-- Milliseconds. -/
  idleTimeout : Nat
  /-- Milliseconds. -/
  grace : Nat
  /-- Milliseconds. -/
  handoff : Nat
  callbackBase : Option String
  deriving Inhabited

def Policy.ofConfig (c : Config) : Policy where
  outputRoot := c.transcode.directory
  segmentSeconds := c.transcode.segmentSeconds
  maxCopySegments := c.transcode.maxCopySegments
  reuseWindow := c.transcode.reuseWindow
  throttleAhead := c.transcode.throttleAhead
  idleTimeout := c.transcode.idleTimeoutSeconds * 1000
  grace := c.transcode.graceSeconds * 1000
  handoff := c.transcode.handoffMillis
  callbackBase := some c.server.callbackBase

end Playout
