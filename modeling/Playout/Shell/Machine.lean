import Playout.Shell.Expansion
import Playout.Shell.Reader
import Playout.Shell.Signal
import Playout.Shell.Utility

/-!
# Shells at work

A shell is what it has still to do, one task after another, and what it waits
for. A step takes one task; what a command in the foreground needs to be followed
by (the rest of a loop, the end of a redirection) is put before the tasks that
were there. Jobs in the background are shells of their own.
-/
namespace Playout.Shell
open Playout.Host

/-- Where a channel leads. -/
inductive Outlet where
  | nowhere
  | output
  | errors
  | pipe
  | file (place : Place)
  deriving DecidableEq, Inhabited

/-- The channels of a command. -/
structure Channels where
  input : List UInt8 := []
  output : Outlet := .output
  errors : Outlet := .errors
  deriving Inhabited

/-- What a subshell gives back when it ends. -/
structure Saved where
  bindings : Bindings
  functions : List (List Char × Command)
  traps : List (Nat × List Char)
  channels : Channels

/-- Something a shell has to do. -/
inductive Task where
  | run (command : Command)
  | chain (onSuccess : Bool) (command : Command)
  | negate
  | branch (yes no : Command)
  | loop (onSuccess : Bool) (test body : Command)
  | each (name : List Char) (items : List (List Char)) (body : Command)
  | restore (channels : Channels)
  | leave (saved : Saved)
  | receive (command : Command) (before : List UInt8)
  | fill (command : Command) (before : List UInt8)
  | giveBack (arguments : List (List Char))
  | settle (status : Nat)
  | start (program : List Char) (arguments : List (List Char))

inductive Waiting where
  | nothing
  | time (due : Nat)
  | jobs (processes : List Nat)
  | job (process : Nat)
  deriving Inhabited

end Shell

open Shell Host in
/-- A shell at work, or another program that it became. -/
structure Shell where
  bindings : Shell.Bindings
  functions : List (List Char × Shell.Command) := []
  traps : List (Nat × List Char) := []
  pending : List Nat := []
  jobs : List Nat := []
  channels : Shell.Channels := {}
  pipe : List UInt8 := []
  tasks : List Shell.Task
  waiting : Shell.Waiting := .nothing
  ending : Option Ending := none

namespace Shell
open Playout.Host

/-- What the shells of a group share. -/
structure Surroundings where
  host : Host
  /-- Microseconds. -/
  now : Nat := 0
  nextProcess : Nat
  /-- What was written to the output, the last first. -/
  written : List (List UInt8) := []
  /-- What was written to the error output, the last first. -/
  complaints : List (List UInt8) := []
  deriving Inhabited

def Surroundings.output (around : Surroundings) : List UInt8 := around.written.reverse.flatten

def Surroundings.errors (around : Surroundings) : List UInt8 := around.complaints.reverse.flatten

/-- What a step changes: the shell, what is around it, and what it does to other shells. -/
structure Step where
  shell : Shell
  around : Surroundings
  job : Option (Nat × Shell) := none
  signal : Option (Option Nat × Nat) := none

/-- The bytes written to an outlet. -/
def emit (s : Shell) (around : Surroundings) (outlet : Outlet) (content : List UInt8) : Step :=
  if content.isEmpty then ⟨s,around,none,none⟩
  else
    match outlet with
    | .nowhere => ⟨s,around,none,none⟩
    | .output => ⟨s,{ around with written := content :: around.written },none,none⟩
    | .errors => ⟨s,{ around with complaints := content :: around.complaints },none,none⟩
    | .pipe => ⟨{ s with pipe := s.pipe ++ content },around,none,none⟩
    | .file place =>
      match around.host.files.node? place with
      | some (.file old isProgram) =>
        let files := around.host.files.put place (.file (old ++ content) isProgram)
        ⟨s,{ around with host := { around.host with files } },none,none⟩
      | _ => ⟨s,around,none,none⟩

def settle (s : Shell) (status : Nat) : Shell :=
  { s with bindings := { s.bindings with status } }

def succeeded (s : Shell) : Bool := s.bindings.status = 0

def push (s : Shell) (tasks : List Task) : Shell := { s with tasks := tasks ++ s.tasks }

def complain (s : Shell) (around : Surroundings) (message : String) (status : Nat) : Step :=
  (s.settle status).emit around s.channels.errors
    (bytes (String.ofList s.bindings.script ++ ": 1: " ++ message ++ "\n"))

def Channels.outlet (c : Channels) (channel : Nat) : Outlet :=
  match channel with
  | 1 => c.output
  | 2 => c.errors
  | _ => .nowhere

def Channels.lead (c : Channels) (channel : Nat) (outlet : Outlet) : Channels :=
  match channel with
  | 1 => { c with output := outlet }
  | 2 => { c with errors := outlet }
  | _ => c

def redirect (b : Bindings) (c : Channels) (h : Host) (r : Redirection) : Except String (Channels × Host) :=
  let opened := fun (file : Word) => b.join file
  match r.redirect with
  | .copy channel => .ok (c.lead r.channel (c.outlet channel),h)
  | .read file =>
    match h.files.read h.directory (opened file) with
    | .ok content => .ok ({ c with input := content },h)
    | .error _ => .error ("cannot open " ++ String.ofList (opened file) ++ ": No such file")
  | .write file appends =>
    if opened file = nullPath then .ok (c.lead r.channel .nowhere,h)
    else
      let written := do
        let files ← if appends then h.files.write h.directory (opened file) true []
          else h.files.write h.directory (opened file) false []
        let (place,_) ← files.find h.directory (opened file)
        pure (files,place)
      match written with
      | .ok (files,place) => .ok (c.lead r.channel (.file place),{ h with files })
      | .error _ => .error ("cannot create " ++ String.ofList (opened file) ++ ": Directory nonexistent")

def redirectAll (b : Bindings) (c : Channels) (h : Host) (rs : List Redirection) : Except String (Channels × Host) :=
  rs.foldlM (fun (c,h) r => redirect b c h r) (c,h)

/-- The shell inside a subshell, which begins with given tasks. -/
def enter (s : Shell) (tasks : List Task) : Shell :=
  { s with
    traps := s.traps.filter (·.2 = [])
    tasks := tasks ++ .leave ⟨s.bindings,s.functions,s.traps,s.channels⟩ :: s.tasks }

def tasksToLeave : List Task → List Task
  | [] => []
  | .leave saved :: rest => .leave saved :: rest
  | _ :: rest => tasksToLeave rest

def exit (s : Shell) (status : Nat) : Shell :=
  { s.settle (status % 256) with tasks := tasksToLeave s.tasks }

def fail (s : Shell) (around : Surroundings) (message : String) (status : Nat) : Step :=
  let step := s.complain around message status
  { step with shell := step.shell.exit status }

/-- The tasks after the innermost loops have been left, or begin again, if there is one. -/
def leaveLoop? (isAgain : Bool) (more : Nat) : List Task → Option (List Task)
  | [] => none
  | .leave _ :: _ => none
  | .restore channels :: rest => (leaveLoop? isAgain more rest).map (.restore channels :: ·)
  | .loop onSuccess test body :: rest =>
    match more with
    | 0 => some (if isAgain then .run test :: .loop onSuccess test body :: rest else rest)
    | more + 1 => leaveLoop? isAgain more rest
  | .each name items body :: rest =>
    match more with
    | 0 => some (if isAgain then .each name items body :: rest else rest)
    | more + 1 => leaveLoop? isAgain more rest
  | _ :: rest => leaveLoop? isAgain more rest

/-- The tasks from the end of the innermost function on, with what is given back before it. -/
def leaveFunction? : List Task → Option (List Task)
  | [] => none
  | .leave _ :: _ => none
  | .giveBack arguments :: rest => some (.giveBack arguments :: rest)
  | .restore channels :: rest => (leaveFunction? rest).map (.restore channels :: ·)
  | _ :: rest => leaveFunction? rest

/-- The shell after a line of its input was read into variables, the last of which takes what is left of the line. -/
def readLine (s : Shell) (names : List (List Char)) : Shell :=
  let (line,rest) := s.channels.input.span (· ≠ 10)
  let rec assign (b : Bindings) (text : List Char) : List (List Char) → Bindings
    | [] => b
    | [name] => b.set name (Text.trim text)
    | name :: names =>
      let (word,text) := (Text.trim text).span fun c => c ≠ ' ' && c ≠ '\t'
      assign (b.set name word) text names
  let bindings := assign s.bindings (Text.Utf8.decodeLossy line) names
  { s with
    bindings := { bindings with status := if rest.isEmpty then 1 else 0 }
    channels := { s.channels with input := rest.drop 1 } }

def scriptError (script : List Char) : String :=
  if (tokens? script).isNone then "Syntax error: Unterminated quoted string" else "Syntax error"

/-- The text that a script wrote, without ends of lines at its end. -/
def writtenText (content : List UInt8) : List Char :=
  (((Text.Utf8.decodeLossy (content.filter (· ≠ 0))).reverse).dropWhile (· = '\n')).reverse

def trap (s : Shell) (action : Option (List Char)) (signals : List (List Char)) : Shell :=
  let numbers := signals.filterMap Signal.ofText?
  let others := s.traps.filter fun t => !numbers.contains t.1
  { s with traps := match action with
      | some action => others ++ numbers.map fun n => (n,action)
      | none => others }

/-- The signal and the processes that the arguments of `kill` name. -/
def killTarget? (arguments : List (List Char)) : Option (Nat × List Char) :=
  match arguments with
  | ['-','s'] :: name :: target :: _ => (Signal.ofText? name).map fun n => (n,target)
  | ('-' :: name) :: ['-','-'] :: target :: _ => (Signal.ofText? name).map fun n => (n,target)
  | ('-' :: name) :: target :: _ => (Signal.ofText? name).map fun n => (n,target)
  | [target] => if target.head? = some '-' then none else some (Signal.terminate,target)
  | _ => none

/-- What `kill` says when its arguments name no signal or no process. -/
def killUsage : String :=
  "kill: Usage: kill [-s sigspec | -signum | -sigspec] [pid | job]... or\nkill -l [exitstatus]"

/-- What a shell says about a program that it cannot start, after its name. -/
def reasonOf : Refusal → String
  | .accessDenied => ": Permission denied"
  | _ => ": not found"

/-- The status of a command whose program cannot be started. -/
def statusOf : Refusal → Nat
  | .noEntry => 127
  | _ => 126

/-- Starts a program: in the foreground, or in place of the shell. -/
def startProgram (s : Shell) (around : Surroundings) (name : List Char) (arguments : List (List Char)) : Step :=
  match around.host.program name with
  | .error why => s.complain around (String.ofList name ++ reasonOf why) (statusOf why)
  | .ok (.utility .sleep) =>
    ⟨{ s.settle 0 with waiting := .time (around.now + sleepMicros arguments) },around,none,none⟩
  | .ok (.utility .shell) =>
    match arguments with
    | ['-','c'] :: script :: rest =>
      let bindings := { s.bindings with script := rest.head?.getD name, arguments := rest.tail }
      match read? script with
      | some c => ⟨{ s.enter [.run c] with bindings, functions := [] },around,none,none⟩
      | none => s.complain around (scriptError script) 2
    | path :: rest =>
      match around.host.files.read around.host.directory path with
      | .ok content =>
        let bindings := { s.bindings with script := path, arguments := rest }
        match read? (Text.Utf8.decodeLossy content) with
        | some c => ⟨{ s.enter [.run c] with bindings, functions := [] },around,none,none⟩
        | none => s.complain around "Syntax error" 2
      | .error _ => s.complain around ("cannot open " ++ String.ofList path ++ ": No such file") 2
    | [] =>
      match read? (Text.Utf8.decodeLossy s.channels.input) with
      | some c => ⟨s.enter [.run c],around,none,none⟩
      | none => s.complain around "Syntax error" 2
  | .ok (.utility utility) =>
    let o := runUtility around.host s.channels.input utility name arguments
    let around := { around with host := { around.host with files := o.files } }
    let written := (s.settle o.status).emit around s.channels.output o.output
    written.shell.emit written.around s.channels.errors o.errors
  | .ok (.answer a) =>
    let files := match a.argumentFile with
      | some place =>
        let lines := arguments.flatMap fun argument => Text.Utf8.encode argument ++ [10]
        around.host.files.withFile place lines false
      | none => around.host.files
    let around := { around with host := { around.host with files } }
    let written := (s.settle a.code).emit around s.channels.output a.output
    written.shell.emit written.around s.channels.errors a.errors
  | .ok (.script path text) =>
    let bindings := { s.bindings with script := path, arguments := arguments }
    match read? text with
    | some c => ⟨{ s.enter [.run c] with bindings, functions := [] },around,none,none⟩
    | none => s.complain around "Syntax error" 2

/-- Carries out a command of the shell itself, or starts a program. -/
def carryOut (s : Shell) (around : Surroundings) (name : List Char) (arguments : List (List Char)) : Step :=
  let done := fun (s : Shell) => (⟨s,around,none,none⟩ : Step)
  let utility := fun (u : Utility) =>
    let o := runUtility around.host s.channels.input u name arguments
    let written := (s.settle o.status).emit around s.channels.output o.output
    written.shell.emit written.around s.channels.errors o.errors
  match String.ofList name with
  | ":" | "true" => done (s.settle 0)
  | "false" => done (s.settle 1)
  | "exit" =>
    match arguments with
    | [] => done (s.exit s.bindings.status)
    | a :: _ =>
      match Text.digits? a with
      | some status => done (s.exit status)
      | none => s.fail around ("exit: Illegal number: " ++ String.ofList a) 2
  | "break" | "continue" =>
    let more := ((arguments.head?.bind Text.digits?).getD 1) - 1
    let s := s.settle 0
    done { s with tasks := (leaveLoop? (name = "continue".toList) more s.tasks).getD s.tasks }
  | "return" =>
    let s := s.settle (((arguments.head?.bind Text.digits?).getD s.bindings.status) % 256)
    match leaveFunction? s.tasks with
    | some tasks => done { s with tasks }
    | none => done (s.exit s.bindings.status)
  | "read" => done (s.readLine arguments)
  | "echo" => (s.settle 0).emit around s.channels.output (echo arguments)
  | "printf" =>
    if arguments.isEmpty then s.complain around "printf: usage: printf format [arg ...]" 2
    else utility .printf
  | "test" | "[" => utility .test
  | "trap" =>
    match arguments with
    | ['-'] :: signals => done ((s.trap none signals).settle 0)
    | action :: signals => done ((s.trap (some action) signals).settle 0)
    | [] => done (s.settle 0)
  | "kill" =>
    match killTarget? arguments with
    | some (0,_) => done (s.settle 0)
    | some (n,'-' :: _) => ⟨s.settle 0,around,none,some (none,n)⟩
    | some (n,target) =>
      if target = ['0'] then ⟨s.settle 0,around,none,some (none,n)⟩
      else
        match Text.digits? target with
        | some process => ⟨s.settle 0,around,none,some (some process,n)⟩
        | none => s.complain around ("kill: Illegal number: " ++ String.ofList target) 2
    | none => s.complain around killUsage 2
  | "wait" =>
    match arguments.filterMap Text.digits? with
    | process :: _ => done { s.settle 0 with waiting := .job process }
    | [] => done { s.settle 0 with waiting := .jobs s.jobs }
  | "exec" =>
    match arguments with
    | program :: rest =>
      match around.host.program program with
      | .error why => s.fail around ("exec: " ++ String.ofList program ++ reasonOf why) (statusOf why)
      | .ok _ =>
        done { s with
          traps := s.traps.filter (·.2 = [])
          tasks := .start program rest :: tasksToLeave s.tasks }
    | [] => done (s.settle 0)
  | "eval" =>
    let script := Text.joinWith [' '] arguments
    match read? script with
    | some c => done ((s.settle 0).push [.run c])
    | none => s.fail around (scriptError script) 2
  | "shift" =>
    let count := (arguments.head?.bind Text.digits?).getD 1
    if s.bindings.arguments.length < count then s.fail around "shift: can't shift that many" 2
    else
      let bindings := { s.bindings with arguments := s.bindings.arguments.drop count, status := 0 }
      done { s with bindings }
  | "unset" =>
    let assigned := s.bindings.assigned.filter fun a => !arguments.contains a.1
    done { s with bindings := { s.bindings with assigned, status := 0 } }
  | "export" =>
    let bindings := arguments.foldl (fun (b : Bindings) a =>
      match Text.splitFirst? '=' a with
      | some (key,value) => b.set key value
      | none => b) s.bindings
    done { s with bindings := { bindings with status := 0 } }
  | "set" =>
    match arguments with
    | ['-','-'] :: rest => done { s.settle 0 with bindings := { s.bindings with arguments := rest } }
    | _ => done (s.settle 0)
  | _ => s.startProgram around name arguments

/-- Carries out a function, a command of the shell itself, or a program. -/
def call (s : Shell) (around : Surroundings) (name : List Char) (arguments : List (List Char)) : Step :=
  match s.functions.find? (·.1 = name) with
  | some (_,body) =>
    let called := s.push [.run body,.giveBack s.bindings.arguments]
    ⟨{ called with bindings := { s.bindings with arguments } },around,none,none⟩
  | none => s.carryOut around name arguments

def runSimple (s : Shell) (around : Surroundings) (assignments : List (List Char × Word))
    (words : List Word) (redirections : List Redirection) : Step :=
  match redirectAll s.bindings s.channels around.host redirections with
  | .error why => s.complain around why 2
  | .ok (channels,host) =>
    let around := { around with host }
    match s.bindings.expandAll words with
    | [] =>
      let bindings := assignments.foldl (fun (b : Bindings) (name,w) => b.set name (b.join w)) s.bindings
      let isWritten := (words ++ assignments.map (·.2)).any fun w => w.any fun
        | .parameter (.written _) _ => true
        | _ => false
      let status := if isWritten then s.bindings.status else 0
      ⟨{ s with bindings := { bindings with status } },around,none,none⟩
    | name :: arguments =>
      if name = "exec".toList && arguments.isEmpty then ⟨{ s.settle 0 with channels },around,none,none⟩
      else
        let s := if redirections.isEmpty then s else { s.push [.restore s.channels] with channels }
        s.call around name arguments

def runCommand (s : Shell) (around : Surroundings) (command : Command) : Step :=
  let done := fun (s : Shell) => (⟨s,around,none,none⟩ : Step)
  let redirected := fun (given : List Redirection) (next : Channels → Shell) =>
    match redirectAll s.bindings s.channels around.host given with
    | .error why => s.complain around why 2
    | .ok (channels,host) => (⟨next channels,{ around with host },none,none⟩ : Step)
  match command with
  | .nothing => done s
  | .simple assignments words redirections => s.runSimple around assignments words redirections
  | .sequence first second => done (s.push [.run first,.run second])
  | .chain onSuccess first second => done (s.push [.run first,.chain onSuccess second])
  | .negate c => done (s.push [.run c,.negate])
  | .background c =>
    let number := around.nextProcess
    let job : Shell := {
      bindings := s.bindings
      functions := s.functions
      traps := s.traps.filter (·.2 = [])
      channels := { s.channels with input := [] }
      tasks := [.run c] }
    let bindings := { s.bindings with lastJob := some number, status := 0 }
    ⟨{ s with bindings, jobs := s.jobs ++ [number] },{ around with nextProcess := number + 1 },
      some (number,job),none⟩
  | .pipe first second =>
    let before := s.pipe
    let inner := { s with pipe := [], tasks := .receive second before :: s.tasks }
    done { inner.enter [.run first] with channels := { s.channels with output := .pipe } }
  | .group c redirections =>
    redirected redirections fun channels => { s.push [.run c,.restore s.channels] with channels }
  | .subshell c redirections => redirected redirections fun channels => { s.enter [.run c] with channels }
  | .branch test yes no => done (s.push [.run test,.branch yes no])
  | .loop onSuccess test body => done (s.push [.run test,.loop onSuccess test body])
  | .each name words body =>
    let items := match words with
      | some words => s.bindings.expandAll words
      | none => s.bindings.arguments
    done ((s.settle 0).push [.each name items body])
  | .choose w cases =>
    let text := s.bindings.join w
    match cases.find? fun c => c.1.any fun p => fits (s.bindings.pattern p) text with
    | some (_,c) => done ((s.settle 0).push [.run c])
    | none => done (s.settle 0)
  | .define name body =>
    done { s.settle 0 with functions := (name,body) :: s.functions.filter (·.1 ≠ name) }

def runTask (s : Shell) (around : Surroundings) (task : Task) : Step :=
  let done := fun (s : Shell) => (⟨s,around,none,none⟩ : Step)
  match task with
  | .run c =>
    match c.script? with
    | none => s.runCommand around c
    | some script =>
      match read? script with
      | none => s.fail around (scriptError script) 2
      | some inner =>
        let waiting := { s with pipe := [], tasks := .fill c s.pipe :: s.tasks }
        done { waiting.enter [.run inner] with channels := { s.channels with output := .pipe } }
  | .fill c before => done ({ s with pipe := before }.push [.run (c.fill (writtenText s.pipe))])
  | .chain onSuccess c => done (if s.succeeded = onSuccess then s.push [.run c] else s)
  | .negate => done (s.settle (if s.succeeded then 1 else 0))
  | .branch yes no => done (if s.succeeded then s.push [.run yes] else (s.settle 0).push [.run no])
  | .loop onSuccess test body =>
    done (if s.succeeded = onSuccess then s.push [.run body,.run test,.loop onSuccess test body]
      else s.settle 0)
  | .each name items body =>
    match items with
    | [] => done s
    | item :: rest =>
      done ({ s with bindings := s.bindings.set name item }.push [.run body,.each name rest body])
  | .restore channels => done { s with channels }
  | .leave saved =>
    done { s with
      bindings := { saved.bindings with status := s.bindings.status }
      functions := saved.functions
      traps := saved.traps
      channels := saved.channels }
  | .receive c before =>
    let inner := { s with pipe := before }
    done { inner.enter [.run c] with channels := { s.channels with input := s.pipe } }
  | .giveBack arguments => done { s with bindings := { s.bindings with arguments } }
  | .settle status => done (s.settle status)
  | .start program arguments => s.startProgram around program arguments

/-- A step of a shell that waits for nothing: the action of a signal, a task, or the end. -/
def step (s : Shell) (around : Surroundings) : Step :=
  let done := fun (s : Shell) => (⟨s,around,none,none⟩ : Step)
  let actionOf := fun (n : Nat) => (s.traps.find? (·.1 = n)).bind fun t => read? t.2
  match s.pending with
  | n :: pending =>
    match actionOf n with
    | some c => done ({ s with pending }.push [.run c,.settle s.bindings.status])
    | none => done { s with pending }
  | [] =>
    match s.tasks with
    | task :: tasks => runTask { s with tasks } around task
    | [] =>
      match actionOf Signal.exit with
      | some c =>
        done ({ s with traps := s.traps.filter (·.1 ≠ Signal.exit) }.push
          [.run c,.settle s.bindings.status])
      | none => done { s with ending := some (.code (s.bindings.status % 256)) }

/-- The shell when a signal arrives: it ends, unless it has an action for the signal. A program in the foreground gets
    the signal as well, and ends unless the signal passes unnoticed. -/
def receive (s : Shell) (signal : Nat) : Shell :=
  if s.ending.isSome || Signal.quiet.contains signal then s
  else if signal = Signal.kill then { s with ending := some (.signal signal) }
  else
    match s.traps.find? (·.1 = signal) with
    | none => { s with ending := some (.signal signal) }
    | some (_,[]) => s
    | some _ =>
      let interrupted := match s.waiting with
        | .nothing => s
        | .time _ | .jobs _ | .job _ => { s.settle (128 + signal) with waiting := .nothing }
      { interrupted with pending := s.pending ++ [signal] }

end Shell
end Playout
