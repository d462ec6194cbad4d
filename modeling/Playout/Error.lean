/-!
# Errors

Every way a request can fail, with its text, its short code and its HTTP status.
-/
namespace Playout

/-- Why a request failed. -/
inductive Error where
  | probeFailure (file message : String)
  | noStreams (file : String)
  | streamNotFound (locator : String) (index : Nat)
  | unknownRepresentation (name : String)
  | unsupportedKind (representation kind : String)
  | spawnFailed (program message : String)
  | segmentTimeout (segment : String)
  | segmentNotFound (segment : String)
  | directory (path cause : String)
  | tool (name message : String)
  | validation (reason : String)
  | io (cause : String)
  | internal (reason : String)
  deriving DecidableEq, Repr, Inhabited

namespace Error

def message : Error → String
  | probeFailure file message => "Probe failed for " ++ file ++ ": " ++ message
  | noStreams file => "No streams found in " ++ file
  | streamNotFound locator index => "Stream " ++ toString index ++ " not found in " ++ locator
  | unknownRepresentation name => "Unknown representation: " ++ name
  | unsupportedKind representation kind =>
    "Unsupported stream type for " ++ representation ++ ": " ++ kind
  | spawnFailed program message => "Failed to spawn " ++ program ++ ": " ++ message
  | segmentTimeout segment => "Timed out waiting for segment " ++ segment
  | segmentNotFound segment => "Segment " ++ segment ++ " not found"
  | directory path cause => "Directory access failed for " ++ path ++ ": " ++ cause
  | tool name message => "Tool error [" ++ name ++ "]: " ++ message
  | validation reason => "Validation error: " ++ reason
  | io cause => "IO error: " ++ cause
  | internal reason => "Internal error: " ++ reason

def code : Error → String
  | probeFailure .. => "probe_failure"
  | noStreams .. => "no_streams_found"
  | streamNotFound .. => "stream_not_found"
  | unknownRepresentation .. => "unknown_representation"
  | unsupportedKind .. => "unsupported_stream_type"
  | spawnFailed .. => "spawn_error"
  | segmentTimeout .. => "segment_timeout"
  | segmentNotFound .. => "segment_not_found"
  | directory .. => "directory_access_error"
  | tool .. => "tool_error"
  | validation .. => "validation_error"
  | io .. => "io_error"
  | internal .. => "internal_error"

def httpStatus : Error → Nat
  | probeFailure .. | noStreams .. | streamNotFound .. | segmentNotFound .. => 404
  | unknownRepresentation .. | unsupportedKind .. | validation .. => 400
  | segmentTimeout .. => 408
  | tool .. => 502
  | spawnFailed .. | directory .. | io .. | internal .. => 500

end Error

abbrev Result (α : Type) := Except Error α

instance {α : Type} [BEq α] : BEq (Result α) where
  beq
    | .ok a, .ok b => a == b
    | .error a, .error b => a == b
    | _, _ => false

end Playout
