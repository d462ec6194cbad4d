import Playout.Config.Basic
import Playout.Text.Utf8
import Playout.Text.Quoted
import Playout.Toml.Reader

/-!
# Reading configurations

A configuration is a TOML document in which every value has a default; unknown
keys are ignored. A section may also be an array of its values in order. It is
read from a given file, or from the first of the usual places that exists.
-/
namespace Playout.Config

/-- Why no configuration was had, as the texts from the outermost circumstance inwards. -/
structure Failure where
  message : String
  deriving Repr, DecidableEq

/-- The values of some keys of a section; every one may be missing. -/
def values? (keys : List String) : Toml → Option (List (Option Toml))
  | .table _ members => some (keys.map fun k => Toml.find? k.toList members)
  | .array items => some ((List.range keys.length).map fun i => items[i]?)
  | .tables items =>
    let items := items.reverse.map fun m => Toml.table .explicit m
    some ((List.range keys.length).map fun i => items[i]?)
  | _ => none

def valueOr {α : Type} (default : α) (read : Toml → Option α) : Option Toml → Option α
  | some v => read v
  | none => some default

def value? {α : Type} (read : Toml → Option α) : Option Toml → Option (Option α)
  | some v => (read v).map some
  | none => some none

def text? : Toml → Option String
  | .string text => some (String.ofList text)
  | _ => none

def nat? (greatest : Nat) : Toml → Option Nat
  | .integer i => if 0 ≤ i ∧ i ≤ greatest then some i.toNat else none
  | _ => none

/-- A value as a number of seconds. -/
def seconds? : Toml → Option Float
  | .float x => some x
  | .integer i => some (Binary64.ofInt i)
  | _ => none

def Server.ofToml? (t : Toml) : Option Server := do
  let d : Server := {}
  match ← values? ["host","port","public_url"] t with
  | [host,port,publicUrl] =>
    some ⟨← valueOr d.host text? host,← valueOr d.port (nat? max16) port,← value? text? publicUrl⟩
  | _ => none

def Library.ofToml? (t : Toml) : Option Library := do
  let d : Library := {}
  match ← values? ["root"] t with
  | [root] => some ⟨← valueOr d.root text? root⟩
  | _ => none

def Tools.ofToml? (t : Toml) : Option Tools := do
  match ← values? ["ffmpeg_path","ffprobe_path"] t with
  | [ffmpeg,ffprobe] => some ⟨← value? text? ffmpeg,← value? text? ffprobe⟩
  | _ => none

def Transcode.ofToml? (t : Toml) : Option Transcode := do
  let d : Transcode := {}
  match ← values? ["temp_dir","segment_duration_secs","max_transmux_segments","reuse_window",
      "throttle_ahead_segments","segment_timeout_secs","shutdown_timeout_secs",
      "idle_timeout_secs","cleanup_interval_secs","terminate_grace_secs","init_handoff_ms"] t with
  | [directory,segment,copies,window,ahead,timeout,shutdown,idle,interval,grace,handoff] =>
    some {
      directory := ← valueOr d.directory text? directory
      segmentSeconds := ← valueOr d.segmentSeconds seconds? segment
      maxCopySegments := ← valueOr d.maxCopySegments (nat? max32) copies
      reuseWindow := ← valueOr d.reuseWindow (nat? max32) window
      throttleAhead := ← valueOr d.throttleAhead (nat? max32) ahead
      segmentTimeoutSeconds := ← valueOr d.segmentTimeoutSeconds (nat? max64) timeout
      shutdownTimeoutSeconds := ← valueOr d.shutdownTimeoutSeconds (nat? max64) shutdown
      idleTimeoutSeconds := ← valueOr d.idleTimeoutSeconds (nat? max64) idle
      cleanupIntervalSeconds := ← valueOr d.cleanupIntervalSeconds (nat? max64) interval
      graceSeconds := ← valueOr d.graceSeconds (nat? max64) grace
      handoffMillis := ← valueOr d.handoffMillis (nat? max64) handoff
    }
  | _ => none

def Cache.ofToml? (t : Toml) : Option Cache := do
  let d : Cache := {}
  match ← values? ["max_entries","ttl_secs"] t with
  | [entries,ttl] => some ⟨← valueOr d.maxEntries (nat? max64) entries,← valueOr d.ttlSeconds (nat? max64) ttl⟩
  | _ => none

def ofToml? (t : Toml) : Option Config := do
  match ← values? ["server","library","tools","transcode","cache"] t with
  | [server,library,tools,transcode,cache] =>
    some {
      server := ← valueOr {} Server.ofToml? server
      library := ← valueOr {} Library.ofToml? library
      tools := ← valueOr {} Tools.ofToml? tools
      transcode := ← valueOr {} Transcode.ofToml? transcode
      cache := ← valueOr {} Cache.ofToml? cache
    }
  | _ => none

def validate (c : Config) : Except Failure Config :=
  match c.fault? with
  | some fault => .error ⟨fault.message⟩
  | none => .ok c

def parse (text : List Char) : Except Failure Config :=
  match (Toml.read? text).bind fun members => ofToml? (.table .explicit members) with
  | some c => validate c
  | none => .error ⟨"Failed to parse config"⟩

/-- Reads the configuration of a file, given its name and its contents if it can be read. -/
def ofFile (name : String) (contents : Option (List UInt8)) : Except Failure Config :=
  let quoted := String.ofList (Text.Quoted.encode name.toList)
  match contents.bind Text.Utf8.decode? with
  | none => .error ⟨"Failed to read config file: " ++ quoted⟩
  | some text => (parse text).mapError fun _ => ⟨"Invalid config file: " ++ quoted⟩

/-- The usual places of a configuration, in the order in which they are tried. -/
def usualPlaces (home : String) : List String :=
  ["./config.toml","./reelforge.toml",home ++ "/.config/reelforge/config.toml",
    "/etc/reelforge/config.toml"]

/-- Reads the configuration of a given file; without one, of the first usual place that exists, or else the default. -/
def load (home : String) (isThere : String → Bool) (contents : String → Option (List UInt8))
    (path : Option String) : Except Failure Config :=
  match path with
  | some name => ofFile name (contents name)
  | none =>
    match (usualPlaces home).find? isThere with
    | some name => ofFile name (contents name)
    | none => .ok {}

end Playout.Config
