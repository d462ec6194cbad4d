import Playout.Encoder.SegmentName
import Playout.Fragment

/-!
# Encoder processes

What is seen of a process of the encoder, and a script of what the processes
that are started next will do: how many segments they write at once, whether they
start or end at once, and how they take signals.
-/
namespace Playout.Encoder

/-- How a process ended: with a code, or by a signal. -/
structure Exit where
  code : Option Int
  deriving DecidableEq, Repr, Inhabited

namespace Exit

def signalled : Exit := ⟨none⟩

def isSuccess (e : Exit) : Bool := e.code == some 0

def text (e : Exit) : String :=
  match e.code with
  | some code => "exit code " ++ toString code
  | none => "terminated by signal"

end Exit

structure Process where
  exit : Option Exit
  isPaused : Bool
  terminations : Nat
  refusesSignals : Bool
  /-- The time it takes to terminate, in milliseconds. -/
  stopMillis : Nat
  deriving DecidableEq, Repr, Inhabited

namespace Process

def hasExited (p : Process) : Bool := p.exit.isSome

/-- The process after a signal to pause or to resume, if the signal arrives. -/
def signal? (pause : Bool) (p : Process) : Option Process :=
  if p.refusesSignals then none else some { p with isPaused := pause }

def terminate (p : Process) : Process :=
  if p.refusesSignals || p.hasExited then p else { p with exit := some .signalled }

end Process

/-- What the processes that are started next do. -/
structure Script where
  produces : Nat := 0
  exit : Option Exit := none
  failure : Option String := none
  refusesSignals : Bool := false
  stopMillis : Nat := 0
  deriving DecidableEq, Repr, Inhabited

def Script.process (s : Script) : Process := ⟨s.exit,false,0,s.refusesSignals,s.stopMillis⟩

def headerContent : List UInt8 := Text.Utf8.encode "ftypinit".toList

/-- The content of a segment: a cue for subtitles, else one fragment with its sequence number. -/
def segmentContent (n : Nat) (kind : StreamKind) : List UInt8 :=
  let ascii := fun (s : String) => Text.Utf8.encode s.toList
  match kind with
  | .subtitle => ascii ("WEBVTT\n\n" ++ toString n ++ "\n")
  | .video | .audio =>
    Fragment.fourBytes 24 ++ ascii "moof" ++ Fragment.fourBytes 16 ++ ascii "mfhd" ++ Fragment.fourBytes 0 ++
      Fragment.fourBytes (n + 1) ++ Fragment.fourBytes 12 ++ ascii "mdat" ++ ascii "data"

end Playout.Encoder
