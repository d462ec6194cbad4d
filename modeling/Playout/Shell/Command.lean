/-!
# Commands of the shell

The commands that scripts of tools are written in: simple commands with their
redirections, lists, tests, loops, choices, functions and jobs in the background.
-/
namespace Playout.Shell

/-- What a `$` stands for. -/
inductive Parameter where
  /-- An argument, or for zero the name of the script. -/
  | argument (n : Nat)
  | arguments
  | count
  | status
  | process
  | lastJob
  | variable (name : List Char)
  | orElse (p : Parameter) (text : List Char)
  | calculation (text : List Char)
  | output (script : List Char)
  | written (text : List Char)
  deriving DecidableEq, Repr, Inhabited

/-- A part of a word. -/
inductive Piece where
  | text (s : List Char) (isQuoted : Bool)
  | parameter (p : Parameter) (isQuoted : Bool)
  deriving DecidableEq, Repr, Inhabited

abbrev Word := List Piece

def Word.script? (w : Word) : Option (List Char) :=
  w.findSome? fun
    | .parameter (.output script) _ => some script
    | _ => none

/-- A piece, where a script is replaced by what it wrote, if that is still to be placed. -/
def Piece.fill (p : Piece) : StateM (Option (List Char)) Piece := fun written =>
  match p, written with
  | .parameter (.output _) isQuoted, some value => (.parameter (.written value) isQuoted,none)
  | p, written => (p,written)

def Word.fill (w : Word) : StateM (Option (List Char)) Word := w.mapM Piece.fill

/-- What a redirection does with a channel. -/
inductive Redirect where
  | read (file : Word)
  | write (file : Word) (appends : Bool)
  | copy (channel : Nat)
  deriving DecidableEq, Repr, Inhabited

/-- A channel, and what becomes of it. -/
structure Redirection where
  channel : Nat
  redirect : Redirect
  deriving DecidableEq, Repr, Inhabited

def Redirection.words (r : Redirection) : List Word :=
  match r.redirect with
  | .read file | .write file _ => [file]
  | .copy _ => []

/-- A redirection, where a script is replaced by what it wrote. -/
def Redirection.fill (r : Redirection) : StateM (Option (List Char)) Redirection := do
  match r.redirect with
  | .read file => pure { r with redirect := .read (← file.fill) }
  | .write file appends => pure { r with redirect := .write (← file.fill) appends }
  | .copy _ => pure r

inductive Command where
  | nothing
  | simple (assignments : List (List Char × Word)) (words : List Word) (redirections : List Redirection)
  | sequence (first second : Command)
  /-- The second command runs if the first one succeeded, or if it failed. -/
  | chain (onSuccess : Bool) (first second : Command)
  | negate (command : Command)
  | background (command : Command)
  | pipe (first second : Command)
  | group (command : Command) (redirections : List Redirection)
  | subshell (command : Command) (redirections : List Redirection)
  | branch (test yes no : Command)
  | loop (onSuccess : Bool) (test body : Command)
  | each (name : List Char) (words : Option (List Word)) (body : Command)
  /-- The command of the first case with a pattern that fits the word. -/
  | choose (word : Word) (cases : List (List Word × Command))
  | define (name : List Char) (body : Command)
  deriving Inhabited

namespace Command

/-- The words that a command expands itself, in order. -/
def words : Command → List Word
  | .simple assignments words redirections =>
    words ++ redirections.flatMap Redirection.words ++ assignments.map (·.2)
  | .group _ redirections | .subshell _ redirections => redirections.flatMap Redirection.words
  | .each _ (some words) _ => words
  | .choose w _ => [w]
  | _ => []

def script? (c : Command) : Option (List Char) := c.words.findSome? Word.script?

/-- A command, where the first script in its words is replaced by what it wrote. -/
def fill (c : Command) (written : List Char) : Command :=
  let filled : StateM (Option (List Char)) Command :=
    match c with
    | .simple assignments words redirections => do
      let words ← words.mapM Word.fill
      let redirections ← redirections.mapM Redirection.fill
      let assignments ← assignments.mapM fun (name,w) => do pure (name,← w.fill)
      pure (.simple assignments words redirections)
    | .group c redirections => do pure (.group c (← redirections.mapM Redirection.fill))
    | .subshell c redirections => do pure (.subshell c (← redirections.mapM Redirection.fill))
    | .each name (some words) body => do pure (.each name (some (← words.mapM Word.fill)) body)
    | .choose w cases => do pure (.choose (← w.fill) cases)
    | c => pure c
  (filled.run (some written)).1

end Command
end Playout.Shell
