import Playout.Run.Basic

/-!
# Available segments

What a listing of the directory of a run says about its segments. Files are
written one after another, so the last of them is left out while the process
runs: it may still be written to. The header is safe once a segment is there.
-/
namespace Playout

/-- The files of a run that may be served. -/
structure Available where
  header : Option String
  segments : List (Nat × String)
  highest : Option Nat
  deriving DecidableEq, Repr, Inhabited

/-- The number of the segment that a file of a run holds, if it is in the range of the run. -/
def Encoder.Job.segmentOf? (job : Job) (name : String) : Option Nat :=
  (segmentNumber? (extension job.rendering.kind).toList name.toList).bind fun n =>
    if job.first + n < job.last then some (job.first + n) else none

namespace Available

def none : Available := ⟨.none,[],.none⟩

/-- Segments in order with one more. -/
def insert (index : Nat) (name : String) : List (Nat × String) → List (Nat × String)
  | [] => [(index,name)]
  | (i,other) :: rest =>
    if index < i then (index,name) :: (i,other) :: rest
    else if index = i then (index,name) :: rest
    else (i,other) :: insert index name rest

/-- The segments in a listing, in order. -/
def listed (job : Encoder.Job) (names : List String) : List (Nat × String) :=
  names.foldl (fun found name =>
    match job.segmentOf? name with
    | some index => insert index name found
    | .none => found) []

/-- What may be served of a listing, when the process had ended before it or not. -/
def ofListing (job : Encoder.Job) (hasExited : Bool) (names : List String) : Available :=
  let header := names.find? (· == Encoder.initName)
  let found := listed job names
  match found.getLast? with
  | some (highest,_) =>
    ⟨header,if hasExited then found else found.filter (·.1 ≠ highest),some highest⟩
  | .none => ⟨if hasExited then header else .none,found,.none⟩

def segment? (a : Available) (index : Nat) : Option String :=
  (a.segments.find? (·.1 == index)).map (·.2)

end Available

/-- What may be served of the directory of a run; nothing if there is no directory. -/
def Run.available? (r : Run) (hasExited : Bool) : Option Available :=
  r.output.map fun files => .ofListing r.job hasExited (files.map (·.name))

end Playout
