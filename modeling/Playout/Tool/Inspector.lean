import Playout.Probe.Report
import Playout.Tool.Run

/-!
# The inspection tool

How the inspection tool is called for the report about a file and for the
keyframes of a stream, and what is made of its output.
-/
namespace Playout.Tool

/-- Why an inspection failed. -/
inductive Inspector.Fault where
  | tool (error : Error)
  | unreadable
  deriving DecidableEq, Repr, Inhabited

def Inspector.Fault.error (file : String) : Fault → Error
  | tool e => .probeFailure file e.message
  | unreadable => .probeFailure file "the report cannot be read"

namespace Inspector

def reportArguments (file : String) : List String :=
  ["-v","quiet","-print_format","json","-show_format","-show_streams",file]

def keyframeArguments (file : String) (stream : Nat) : List String :=
  ["-v","quiet","-select_streams",toString stream,"-skip_frame","nokey","-show_entries","frame=pts",
    "-of","json",file]

def ask {α : Type} (h : Host) (tool : String) (arguments : List String)
    (read? : List UInt8 → Option α) : Except Fault α × Host :=
  match Tool.run h tool.toList (arguments.map String.toList) usualLimit with
  | (.error e,h) => (.error (.tool e),h)
  | (.ok o,h) =>
    match read? o.output with
    | some a => (.ok a,h)
    | none => (.error .unreadable,h)

def report (h : Host) (tool file : String) : Except Fault Probe.Container × Host :=
  ask h tool (reportArguments file) Probe.Container.read?

def keyframes (h : Host) (tool file : String) (stream : Nat) : Except Fault (List Int) × Host :=
  ask h tool (keyframeArguments file stream) Probe.readKeyframes?

end Inspector
end Playout.Tool
