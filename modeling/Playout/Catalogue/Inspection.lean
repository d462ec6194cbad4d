import Playout.Catalogue.Library
import Playout.Error
import Playout.Representation.Cache
import Playout.Turn

/-!
# Inspections

Files are inspected, and their keyframes scanned, when they are asked for and not
again until their modification time differs. The time is looked up before the
inspection that is kept under it, so that a file that is replaced meanwhile is
inspected again.
-/
namespace Playout.Catalogue

/-- A finding, and the modification time of the file that it was kept under. -/
structure Finding (κ α : Type) where
  key : κ
  value : α
  modified : Int

/-- The finding that is kept under a key and a modification time. -/
def Finding.find? {κ α : Type} [BEq κ] (findings : List (Finding κ α)) (key : κ) (modified : Int) : Option α :=
  match findings.find? (·.key == key) with
  | some f => if f.modified = modified then some f.value else none
  | none => none

/-- The findings with one that replaces the earlier one of its key. -/
def Finding.keep {κ α : Type} [BEq κ] (findings : List (Finding κ α)) (finding : Finding κ α) : List (Finding κ α) :=
  findings.filter (·.key != finding.key) ++ [finding]

/-- The library and what is known of it. -/
structure State where
  library : Library
  reports : List (Finding Place Probe.Container) := []
  keyframes : List (Finding (Place × Nat) (List Int)) := []
  renderings : RenderingCache
  inspections : Nat := 0
  scans : Nat := 0

namespace State

def pathOf (s : State) (locator : Locator) : List Char := locator.resolve s.library.root

def failure (path : List Char) (why : String) : Error := .probeFailure (String.ofList path) why

def stat (s : State) (path : List Char) : Result MediaFile :=
  match s.library.stat path with
  | .ok file => .ok file
  | .error why => .error (failure path why)

def forget (s : State) (path : List Char) : State :=
  let place := Path.components path
  { s with
    reports := s.reports.filter (·.key != place)
    keyframes := s.keyframes.filter (·.key.1 != place) }

end State

/-- Where an inspection waits. -/
inductive Inspection where
  | stat
  | consulting (modified : Int) (size : Nat)
  | inspecting (modified : Int) (size : Nat)
  | keeping (modified : Int) (report : Probe.Container)

namespace Inspection

/-- The report of the tool about a file, with the size of the file if it says none. One without any track is refused. -/
def report (s : State) (path : List Char) (size : Nat) : Result Probe.Container :=
  match (s.library.inspected path).report with
  | .error why => .error (State.failure path why)
  | .ok c =>
    if c.tracks.isEmpty then .error (.noStreams (String.ofList path))
    else .ok { c with format := { c.format with size := some (c.format.size.getD size) } }

def turn (path : List Char) (phase : Inspection) (s : State) : Turn State Inspection (Result Probe.Container) :=
  match phase with
  | stat =>
    match s.stat path with
    | .error e => .ends s (.error e)
    | .ok file => .goesOn s (consulting file.modified file.size)
  | consulting modified size =>
    match Finding.find? s.reports (Path.components path) modified with
    | some report => .ends s (.ok report)
    | none => .goesOn s (inspecting modified size)
  | inspecting modified size =>
    let counted := { s with inspections := s.inspections + 1 }
    match report s path size with
    | .error e => .ends counted (.error e)
    | .ok report => .goesOn counted (keeping modified report)
  | keeping modified report =>
    .ends { s with reports := Finding.keep s.reports ⟨Path.components path,report,modified⟩ }
      (.ok report)

end Inspection

/-- Where a scan for keyframes waits. -/
inductive Scan where
  | stat
  | consulting (modified : Int)
  | scanning (modified : Int)
  | keeping (modified : Int) (frames : List Int)

namespace Scan

def turn (path : List Char) (index : Nat) (phase : Scan) (s : State) : Turn State Scan (Result (List Int)) :=
  match phase with
  | stat =>
    match s.stat path with
    | .error e => .ends s (.error e)
    | .ok file => .goesOn s (consulting file.modified)
  | consulting modified =>
    match Finding.find? s.keyframes (Path.components path,index) modified with
    | some frames => .ends s (.ok frames)
    | none => .goesOn s (scanning modified)
  | scanning modified =>
    let counted := { s with scans := s.scans + 1 }
    match (s.library.inspected path).keyframes with
    | .error why => .ends counted (.error (State.failure path why))
    | .ok frames => .goesOn counted (keeping modified frames)
  | keeping modified frames =>
    .ends { s with keyframes :=
        Finding.keep s.keyframes ⟨(Path.components path,index),frames,modified⟩ }
      (.ok frames)

end Scan

def playableStreams (locator : Locator) (report : Probe.Container) : Result (List Stream) :=
  match report.streams with
  | [] => .error (.noStreams locator.text)
  | streams => .ok streams

def streamOf (key : StreamKey) (report : Probe.Container) : Result Stream := do
  let streams ← playableStreams key.locator report
  match streams.find? (·.index == key.index) with
  | some stream => pure stream
  | none => throw (.streamNotFound key.locator.text key.index)

end Playout.Catalogue
