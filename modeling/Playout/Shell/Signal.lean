import Playout.Text.Numeral

/-!
# Signals

Signals by number, with their names, and how processes end.
-/
namespace Playout

/-- How a process of the host ended. -/
inductive Ending where
  | code (n : Nat)
  | signal (n : Nat)
  deriving DecidableEq, Repr, Inhabited

namespace Signal

def names : List String :=
  ["HUP","INT","QUIT","ILL","TRAP","ABRT","BUS","FPE","KILL","USR1","SEGV","USR2","PIPE",
    "ALRM","TERM","STKFLT","CHLD","CONT","STOP","TSTP","TTIN","TTOU","URG","XCPU","XFSZ",
    "VTALRM","PROF","WINCH","IO","PWR","SYS"]

def terminate : Nat := 15

def kill : Nat := 9

/-- The number that stands for the end of a script where it waits for signals. -/
def exit : Nat := 0

/-- The signals that a process does not notice unless it asks to. -/
def quiet : List Nat := [17,18,23,28]

/-- The signal of a name, with or without `SIG` before it, or of a number. -/
def ofText? (s : List Char) : Option Nat :=
  match Text.digits? s with
  | some n => some n
  | none =>
    let name := (Text.dropStart? "SIG".toList s).getD s
    if name = "EXIT".toList then some exit
    else (names.findIdx? fun n => n.toList = name).map (· + 1)

def fullName? (n : Nat) : Option String :=
  if n = 0 then none else (names[n - 1]?).map ("SIG" ++ ·)

end Signal

def Ending.message : Ending → String
  | code n => "exit status: " ++ toString n
  | signal n =>
    match Signal.fullName? n with
    | some name => "signal: " ++ toString n ++ " (" ++ name ++ ")"
    | none => "signal: " ++ toString n

end Playout
