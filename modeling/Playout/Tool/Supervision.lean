import Playout.Encoder.Process
import Playout.Tool.Run

/-!
# Supervised processes

A process that runs for long is started in a group of its own. It can be paused,
resumed and asked to end, with force after some grace, and its end is noted once
it was waited for. Signals after that are ignored.
-/
namespace Playout.Tool
open Playout.Host Playout.Shell

/-- A supervised process. -/
structure Supervised where
  name : String
  group : Group
  exit : Option Encoder.Exit := none

def exitOf : Ending → Encoder.Exit
  | .code n => ⟨some n⟩
  | .signal _ => .signalled

namespace Supervised

def start (h : Host) (name : String) (program : List Char) (arguments : List (List Char))
    (channels : Channels) : Result Supervised :=
  match Group.start h program arguments channels with
  | .ok group => .ok { name, group }
  | .error why => .error (.spawnFailed name why.message)

def files (p : Supervised) : Files := p.group.around.host.files

def hasEnded (g : Group) : Bool := g.ending.isSome

/-- The process once its end is noted. -/
def note (p : Supervised) : Supervised :=
  match p.exit with
  | some _ => p
  | none => { p with exit := p.group.ending.map exitOf }

def wait (p : Supervised) : Supervised :=
  match p.exit with
  | some _ => p
  | none => note { p with group := p.group.follow hasEnded }

/-- The process when a file was waited for, in steps of its own. -/
def waitForFile (p : Supervised) (path : List Char) : Supervised :=
  let isThere := fun (g : Group) => g.around.host.files.isThere g.around.host.directory path
  { p with group := (p.group.follow fun g => isThere g || hasEnded g).advance 0 fun _ => false }

def stop (p : Supervised) (isStopped : Bool) : Supervised :=
  match p.exit with
  | some _ => p
  | none => { p with group := { p.group with isStopped } }

/-- The process when it was asked to end, continued so that it can, and forced after some time in milliseconds. -/
def terminate (p : Supervised) (grace : Nat) : Supervised :=
  match p.exit with
  | some _ => p
  | none =>
    let asked := { p.group.signal none Signal.terminate with isStopped := false }
    let waited := if grace = 0 then asked else asked.advance (grace * 1000) hasEnded
    let ended := if hasEnded waited then waited else waited.signal none Signal.kill
    note { p with group := ended }

def withFile (p : Supervised) (path : List Char) : Supervised :=
  let h := p.group.around.host
  match h.files.write h.directory path false [] with
  | .ok files => { p with group := { p.group with around := { p.group.around with host := { h with files } } } }
  | .error _ => p

end Supervised

/-- Something that is done with a supervised process. -/
inductive Order where
  | wait
  | look
  | pause
  | resume
  | terminate (grace : Nat)
  | makeFile (path : List Char)
  deriving DecidableEq, Repr

inductive Order.Answer where
  | done
  | made
  | exit (exit : Option Encoder.Exit)
  deriving DecidableEq, Repr

def Supervised.obey (p : Supervised) (order : Order) : Supervised × Order.Answer :=
  match order with
  | .wait =>
    let p := p.wait
    (p,.exit p.exit)
  | .look => (p,.exit p.exit)
  | .pause => (p.stop true,.done)
  | .resume => (p.stop false,.done)
  | .terminate grace => (p.terminate grace,.done)
  | .makeFile path => (p.withFile path,.made)

def Supervised.obeyAll (p : Supervised) : List Order → List Order.Answer
  | [] => []
  | order :: orders =>
    let (p,answer) := p.obey order
    answer :: p.obeyAll orders

end Playout.Tool
