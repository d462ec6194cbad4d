import Playout.Encoder.Job
import Playout.Encoder.Process
import Playout.Encoder.Progress

/-!
# Runs

One run of the encoder that writes one range of segments into a directory of its
own. A run is new, running or throttled in turn, stopping once it is destroyed,
and exited when its process ended or its teardown is over; the end of the process
shows before it is noted.
-/
namespace Playout

/-- What is noted about the life of a run. -/
inductive Stage where
  | new
  | running
  | throttled
  | stopping
  | exited
  deriving DecidableEq, Repr, Inhabited

def Stage.name : Stage → String
  | new => "new"
  | running => "running"
  | throttled => "throttled"
  | stopping => "stopping"
  | exited => "exited"

/-- A file in the directory of a run. -/
structure OutputFile where
  name : String
  content : List UInt8
  deriving DecidableEq, Repr, Inhabited

/-- One run of the encoder. -/
structure Run where
  job : Encoder.Job
  stage : Stage := .new
  process : Option Nat := none
  progress : Option Encoder.Report := none
  isDestroyed : Bool := false
  /-- The files in its directory, nothing if there is no directory. -/
  output : Option (List OutputFile) := some []

namespace Run

def covers (r : Run) (index : Nat) : Bool := r.job.first ≤ index && index < r.job.last

def destroy (r : Run) : Run :=
  { r with isDestroyed := true, stage := if r.stage = .exited then .exited else .stopping }

/-- The stage that shows when the process of the run has ended as given. -/
def shown (r : Run) (exit : Option Encoder.Exit) : Stage :=
  if exit.isSome then .exited else r.stage

def file? (r : Run) (name : String) : Option OutputFile :=
  r.output.bind fun files => files.find? fun f => f.name == name

def removeOutput (r : Run) : Run := { r with output := none }

/-- The run with a file written into its directory, if it has one. -/
def write (r : Run) (name : String) (content : List UInt8) : Run :=
  { r with output := r.output.map fun files => files.filter (·.name ≠ name) ++ [⟨name,content⟩] }

def unlink (r : Run) (name : String) : Run :=
  { r with output := r.output.map fun files => files.filter (·.name ≠ name) }

/-- The run when its process has written `count` segments, the first of them `start`, as far as they are in its range,
    and the header with them. -/
def produce (r : Run) (start count : Nat) : Run :=
  let kind := r.job.rendering.kind
  let numbers := List.range' start (min (start + count) (r.job.last - r.job.first) - start)
  let written := numbers.foldl
    (fun run n => run.write (Encoder.segmentName n kind) (Encoder.segmentContent n kind)) r
  if numbers = [] ∨ kind = .subtitle then written
  else written.write Encoder.initName Encoder.headerContent

end Run
end Playout
