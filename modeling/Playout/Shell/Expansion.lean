import Playout.Shell.Arithmetic
import Playout.Shell.Command
import Playout.Text.Blank
import Playout.Text.Numeral

/-!
# Expansion of words

A word becomes a list of fields: its parameters are replaced, and what replaces a
parameter outside quotes is cut at blanks. A pattern stays one field; stars,
question marks and brackets in it that are not quoted stand for other characters.
-/
namespace Playout.Shell

/-- What parameters stand for. -/
structure Bindings where
  script : List Char
  arguments : List (List Char)
  assigned : List (List Char × List Char)
  status : Nat
  process : Nat
  lastJob : Option Nat
  deriving Inhabited

def Bindings.variable (b : Bindings) (name : List Char) : List Char :=
  ((b.assigned.find? (·.1 = name)).map (·.2)).getD []

/-- The value of a calculation, where a variable counts as the number that it denotes, zero if it denotes none. -/
def Bindings.calculate (b : Bindings) (text : List Char) : Int :=
  (Arithmetic.value? (fun name =>
    (Text.integer? minSigned64 maxSigned64 (b.variable name)).getD 0) text).getD 0

/-- The value of a parameter, the arguments joined by spaces. -/
def Bindings.value (b : Bindings) : Parameter → List Char
  | .argument 0 => b.script
  | .argument (n + 1) => (b.arguments[n]?).getD []
  | .arguments => Text.joinWith [' '] b.arguments
  | .count => Text.decimal b.arguments.length
  | .status => Text.decimal b.status
  | .process => Text.decimal b.process
  | .lastJob => (b.lastJob.map Text.decimal).getD []
  | .variable name => b.variable name
  | .orElse p text => if b.value p = [] then text else b.value p
  | .calculation text => (toString (b.calculate text)).toList
  | .output _ => []
  | .written text => text

def Bindings.set (b : Bindings) (name value : List Char) : Bindings :=
  { b with assigned := (name,value) :: b.assigned.filter (·.1 ≠ name) }

/-- Fields that are being put together: those that are complete, and one that may have begun. -/
structure Fields where
  complete : List (List Char)
  current : Option (List Char)

namespace Fields

def add (f : Fields) (s : List Char) : Fields := { f with current := some (f.current.getD [] ++ s) }

def close (f : Fields) : Fields :=
  match f.current with
  | some s => ⟨f.complete ++ [s],none⟩
  | none => f

def addCut (f : Fields) : List Char → Fields
  | [] => f
  | c :: cs =>
    if c = ' ' || c = '\t' || c = '\n' then f.close.addCut cs else (f.add [c]).addCut cs

/-- Adds arguments, each its own field; the first and the last continue what is around them. -/
def addEach (f : Fields) : List (List Char) → Fields
  | [] => f
  | [s] => f.add s
  | s :: rest => (f.add s).close.addEach rest

end Fields

def Bindings.expandPiece (b : Bindings) (f : Fields) : Piece → Fields
  | .text s _ => f.add s
  | .parameter .arguments true => f.addEach b.arguments
  | .parameter p true => f.add (b.value p)
  | .parameter .arguments false => b.arguments.foldl (fun f s => f.close.addCut s) f
  | .parameter p false => f.addCut (b.value p)

/-- Whether a word is nothing but all arguments in quotes, which is no field if there are none. -/
def isArgumentsAlone (w : Word) : Bool :=
  w.any (· == .parameter .arguments true) && w.all fun p => p == .parameter .arguments true || p == .text [] true

def Bindings.expand (b : Bindings) (w : Word) : List (List Char) :=
  if isArgumentsAlone w && b.arguments.isEmpty then []
  else (w.foldl b.expandPiece ⟨[],none⟩).close.complete

def Bindings.expandAll (b : Bindings) (ws : List Word) : List (List Char) := ws.flatMap b.expand

def Bindings.join (b : Bindings) (w : Word) : List Char :=
  w.flatMap fun
    | .text s _ => s
    | .parameter p _ => b.value p

/-- A part of a pattern. -/
inductive Wildcard where
  | exactly (c : Char)
  | one
  | any
  | oneOf (isNegated : Bool) (set : List Char)

/-- The wildcards of an unquoted text, after `skip` characters that belong to the previous one. -/
def wildcards : Nat → List Char → List Wildcard
  | _, [] => []
  | skip + 1, _ :: cs => wildcards skip cs
  | 0, c :: cs =>
    match c with
    | '*' => .any :: wildcards 0 cs
    | '?' => .one :: wildcards 0 cs
    | '[' =>
      let inner := cs.takeWhile (· ≠ ']')
      if inner.length = cs.length then .exactly c :: wildcards 0 cs
      else
        match inner with
        | '!' :: set => .oneOf true set :: wildcards (inner.length + 1) cs
        | set => .oneOf false set :: wildcards (inner.length + 1) cs
    | c => .exactly c :: wildcards 0 cs

def Bindings.pattern (b : Bindings) (w : Word) : List Wildcard :=
  w.flatMap fun
    | .text s true => s.map .exactly
    | .text s false => wildcards 0 s
    | .parameter p true => (b.value p).map .exactly
    | .parameter p false => wildcards 0 (b.value p)

/-- Whether a character is in a set of characters and ranges. -/
def inSet (c : Char) : List Char → Bool
  | low :: '-' :: high :: rest => (low ≤ c && c ≤ high) || inSet c rest
  | d :: rest => c == d || inSet c rest
  | [] => false

/-- The texts that may follow when a wildcard is matched against the start of a text. -/
def Wildcard.rests (w : Wildcard) (s : List Char) : List (List Char) :=
  match w, s with
  | .any, s => (List.range (s.length + 1)).map s.drop
  | .exactly c, d :: rest => if c = d then [rest] else []
  | .one, _ :: rest => [rest]
  | .oneOf isNegated set, d :: rest => if inSet d set != isNegated then [rest] else []
  | _, [] => []

def fits : List Wildcard → List Char → Bool
  | [], s => s.isEmpty
  | w :: pattern, s => (w.rests s).any (fits pattern)

end Playout.Shell
