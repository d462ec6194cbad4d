import Playout.Binary64.Reader
import Playout.Text.Blank
import Playout.Text.Split
import Playout.Text.Utf8

/-!
# Progress reports

The encoder reports its progress in lines `key=value`; a line with the key
`progress` completes a report. Lines are assembled from chunks of bytes, each of
which is decoded on its own.
-/
namespace Playout.Encoder

/-- One progress report. -/
structure Report where
  frame : Option Nat
  /-- The time reached in the output, in microseconds. -/
  micros : Option Nat
  speed : Option Float
  isLast : Bool
  deriving Inhabited

def Report.empty : Report := ⟨none,none,none,false⟩

/-- A line that is not complete and the facts of the report that is not complete. -/
structure ProgressParser where
  pending : List Char
  current : Report

def ProgressParser.start : ProgressParser := ⟨[],.empty⟩

/-- A text without the letters `x` at its end. -/
def dropFactor (s : List Char) : List Char := (s.reverse.dropWhile (· == 'x')).reverse

/-- The facts after one line, and the report if the line completes one. -/
def Report.line (r : Report) (line : List Char) : Report × Option Report :=
  match Text.splitFirst? '=' (Text.trim line) with
  | none => (r,none)
  | some (key,value) =>
    let value := Text.trim value
    match String.ofList (Text.trim key) with
    | "frame" => ({ r with frame := Text.natural? max64 value },none)
    | "out_time_us" | "out_time_ms" =>
      match Text.natural? max64 value with
      | some micros => ({ r with micros := some micros },none)
      | none => (r,none)
    | "speed" => ({ r with speed := Binary64.read? (Text.trim (dropFactor value)) },none)
    | "progress" => (.empty,some { r with isLast := value == "end".toList })
    | _ => (r,none)

/-- The complete lines of a text, and what follows the last line break. -/
def completeLines (s : List Char) : List (List Char) × List Char :=
  let parts := Text.splitAll '\n' s
  (parts.dropLast,parts.getLast?.getD [])

/-- The facts after some lines, and the reports that they complete. -/
def Report.lines (r : Report) : List (List Char) → Report × List Report
  | [] => (r,[])
  | line :: rest =>
    let (r,complete) := r.line line
    let (r,later) := r.lines rest
    (r,complete.toList ++ later)

/-- The parser after one more chunk, and the reports that the chunk completes. -/
def ProgressParser.push (p : ProgressParser) (chunk : List UInt8) : ProgressParser × List Report :=
  let (complete,pending) := completeLines (p.pending ++ Text.Utf8.decodeLossy chunk)
  let (current,reports) := p.current.lines complete
  (⟨pending,current⟩,reports)

def ProgressParser.pushAll (p : ProgressParser) : List (List UInt8) → List (List Report)
  | [] => []
  | chunk :: rest =>
    let (p,reports) := p.push chunk
    reports :: p.pushAll rest

end Playout.Encoder
