import Playout.Shell.Machine

/-!
# Process groups

A process with the jobs that it started, on a clock of microseconds. Commands
take no time but where they sleep: time goes on when every process waits, to the
next moment at which one does not. Signals go to the whole group; one that is
stopped does nothing until it is continued.
-/
namespace Playout.Shell
open Playout.Host

/-- A process group; its first member leads it. -/
structure Group where
  around : Surroundings
  members : List (Nat × Shell)
  isStopped : Bool := false

namespace Group

def leader : Nat := 1000

/-- The shell that starts a program, with its arguments and whether its output is kept. -/
def starter (program : List Char) (arguments : List (List Char)) (channels : Channels) : Shell where
  bindings := ⟨program,[],[],0,leader,none⟩
  channels := channels
  tasks := [.start program arguments]

def start (h : Host) (program : List Char) (arguments : List (List Char)) (channels : Channels) :
    Except Refusal Group := do
  let _ ← h.program program
  if arguments.any fun a => '\x00' ∈ a then throw .endOfText
  else pure ⟨{ host := h, nextProcess := leader + 1 },[(leader,starter program arguments channels)],false⟩

/-- How a process of the group ended, if it did; one that is not known has ended. -/
def endingOf (g : Group) (process : Nat) : Option Ending :=
  match g.members.find? (·.1 = process) with
  | some (_,s) => s.ending
  | none => some (.code 127)

def ending (g : Group) : Option Ending := g.endingOf leader

/-- Whether a shell can still write to the output that is kept. -/
def holdsOutput (s : Shell) : Bool :=
  s.ending.isNone && [s.channels.output,s.channels.errors].any fun o => o == .output || o == .errors

/-- Whether the leader ended and nobody can write to the output any more. -/
def isOver (g : Group) : Bool := g.ending.isSome && g.members.all fun m => !holdsOutput m.2

def statusOf : Ending → Nat
  | .code n => n
  | .signal n => 128 + n

def awake? (g : Group) (s : Shell) : Option Shell :=
  if s.ending.isSome then none
  else
    let going := { s with waiting := .nothing }
    match s.waiting with
    | .nothing => some s
    | .time due => if due ≤ g.around.now then some going else none
    | .jobs processes => if processes.all fun p => (g.endingOf p).isSome then some going else none
    | .job process => (g.endingOf process).map fun e => going.settle (statusOf e)

def signal (g : Group) (target : Option Nat) (n : Nat) : Group :=
  { g with members := g.members.map fun (process,s) =>
      if target.all (· = process) then (process,s.receive n) else (process,s) }

def ready? (g : Group) : Option (Nat × Shell) :=
  g.members.findSome? fun (process,s) => (g.awake? s).map fun s => (process,s)

/-- A step of the first member that can go on, if there is one. -/
def step? (g : Group) : Option Group :=
  g.ready?.map fun (process,s) =>
    let step := s.step g.around
    let members := g.members.map fun m => if m.1 = process then (process,step.shell) else m
    let members := match step.job with
      | some job => members ++ [job]
      | none => members
    let g := { g with around := step.around, members }
    match step.signal with
    | some (target,n) => g.signal target n
    | none => g

def nextTime? (g : Group) : Option Nat :=
  (g.members.filterMap fun (_,s) =>
    match s.ending,s.waiting with
    | none,.time due => some due
    | _,_ => none).min?

/-- Goes on until `stop` holds or a time is reached; the fuel bounds the steps. -/
def goOn (limit : Option Nat) (stop : Group → Bool) : Nat → Group → Group
  | 0, g => g
  | fuel + 1, g =>
    if g.isStopped || stop g then g
    else
      match g.step? with
      | some g => goOn limit stop fuel g
      | none =>
        match g.nextTime? with
        | none => g
        | some time =>
          if limit.all (time ≤ ·) then
            goOn limit stop fuel { g with around := { g.around with now := max time g.around.now } }
          else g

def patience : Nat := 300000

/-- The group after some time, or earlier when `stop` holds. -/
def advance (g : Group) (micros : Nat) (stop : Group → Bool) : Group :=
  let limit := g.around.now + micros
  let g := goOn (some limit) stop patience g
  if stop g then g else { g with around := { g.around with now := limit } }

/-- The group when `stop` holds, however long it takes. -/
def follow (g : Group) (stop : Group → Bool) : Group := goOn none stop patience g

end Group
end Playout.Shell
