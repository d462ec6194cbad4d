import Playout.Error
import Playout.Shell.Group

/-!
# Runs of tools

A tool is run to its end with nothing to read, and what it writes is kept. A run
that takes longer than its limit fails, and so does one that ends otherwise than
with code zero; the failure says what the tool wrote about it.
-/
namespace Playout.Tool
open Playout.Host Playout.Shell

/-- The name that a tool has in messages: that of its file. -/
def displayName (program : List Char) : String := String.ofList ((Path.fileName? program).getD program)

/-- A time in milliseconds, with its unit; seconds where it reaches one. -/
def timeText (millis : Nat) : String :=
  if millis = 0 then "0ns"
  else if millis < 1000 then toString millis ++ "ms"
  else
    let fraction := (Text.decimal (1000 + millis % 1000)).tail
    let shown := (fraction.reverse.dropWhile (· = '0')).reverse
    let point := if shown = [] then "" else "."
    toString (millis / 1000) ++ point ++ String.ofList shown ++ "s"

/-- The limit of a run that is given none, in milliseconds. -/
def usualLimit : Nat := 120000

/-- What a tool that succeeded wrote. -/
structure Output where
  code : Nat
  output : List UInt8
  errors : List Char
  deriving Inhabited

def run (h : Host) (program : List Char) (arguments : List (List Char)) (limitMillis : Nat) : Result Output × Host :=
  let name := displayName program
  match Group.start h program arguments {} with
  | .error why => (.error (.tool name ("failed to spawn: " ++ why.message)),h)
  | .ok g =>
    let g := if limitMillis = 0 then g else g.advance (limitMillis * 1000) Group.isOver
    let errors := Text.Utf8.decodeLossy g.around.errors
    let answer := match if g.isOver then g.ending else none with
      | none => .error (.tool name ("timed out after " ++ timeText limitMillis))
      | some (.code 0) => .ok ⟨0,g.around.output,errors⟩
      | some ending =>
        .error (.tool name ("exited with " ++ ending.message ++ ": " ++ String.ofList (Text.trim errors)))
    (answer,g.around.host)

end Playout.Tool
