import Playout.Text.Numeral

/-!
# Arithmetic

Whole numbers, names of variables, and operators between them. What binds tighter
is applied first, and of equals what stands on the left; a comparison gives one or
zero, and there is no value where something is divided by zero.
-/
namespace Playout.Shell.Arithmetic

/-- A token of a calculation. -/
inductive Token where
  | number (n : Int)
  | symbol (text : String)
  deriving DecidableEq, Repr, Inhabited

/-- The operators between two numbers, those that bind least first; those of a row bind alike. -/
def rows : List (List String) :=
  [["||"],["&&"],["==","!="],["<=",">=","<",">"],["+","-"],["*","/","%"]]

def symbols : List String :=
  ["||","&&","==","!=","<=",">=","<",">","+","-","*","/","%","!","(",")"]

/-- The tokens of a text, after `skip` characters that belong to the previous one; a `$` before a name says nothing. -/
def tokens? (valueOf : List Char → Int) : Nat → List Char → Option (List Token)
  | _, [] => some []
  | skip + 1, _ :: cs => tokens? valueOf skip cs
  | 0, c :: cs =>
    if c = ' ' || c = '\t' || c = '\n' || c = '$' then tokens? valueOf 0 cs
    else
      let word := (c :: cs).takeWhile fun c => c.isAlphanum || c == '_'
      if word ≠ [] then do
        let n ← if c.isDigit then (Text.digits? word).map Int.ofNat else some (valueOf word)
        some (.number n :: (← tokens? valueOf (word.length - 1) cs))
      else do
        let s ← symbols.find? fun s => (Text.dropStart? s.toList (c :: cs)).isSome
        some (.symbol s :: (← tokens? valueOf (s.length - 1) cs))

/-- One for a statement that holds, zero for another. -/
def truth (holds : Bool) : Int := if holds then 1 else 0

/-- What an operator makes of two numbers; division drops the fraction. -/
def combine? (operator : String) (a b : Int) : Option Int :=
  match operator with
  | "||" => some (truth (a ≠ 0 || b ≠ 0))
  | "&&" => some (truth (a ≠ 0 && b ≠ 0))
  | "==" => some (truth (a = b))
  | "!=" => some (truth (a ≠ b))
  | "<=" => some (truth (a ≤ b))
  | ">=" => some (truth (b ≤ a))
  | "<" => some (truth (a < b))
  | ">" => some (truth (b < a))
  | "+" => some (a + b)
  | "-" => some (a - b)
  | "*" => some (a * b)
  | "/" => if b = 0 then none else some (Int.tdiv a b)
  | "%" => if b = 0 then none else some (Int.tmod a b)
  | _ => none

mutual

/-- Takes a number, a calculation in brackets, or one of these behind a sign. -/
def operand? : Nat → List Token → Option (Int × List Token)
  | 0, _ => none
  | fuel + 1, ts =>
    match ts with
    | .number n :: ts => some (n,ts)
    | .symbol "(" :: ts => do
      match ← row? fuel rows ts with
      | (n,.symbol ")" :: ts) => some (n,ts)
      | _ => none
    | .symbol "-" :: ts => (operand? fuel ts).map fun (n,ts) => (-n,ts)
    | .symbol "+" :: ts => operand? fuel ts
    | .symbol "!" :: ts => (operand? fuel ts).map fun (n,ts) => (truth (n = 0),ts)
    | _ => none

/-- Takes operands that are joined by the operators of some rows. -/
def row? : Nat → List (List String) → List Token → Option (Int × List Token)
  | 0, _, _ => none
  | fuel + 1, [], ts => operand? fuel ts
  | fuel + 1, row :: tighter, ts => do
    let (n,ts) ← row? fuel tighter ts
    rest? fuel row tighter n ts

def rest? : Nat → List String → List (List String) → Int → List Token → Option (Int × List Token)
  | 0, _, _, _, _ => none
  | fuel + 1, row, tighter, n, ts =>
    match ts with
    | .symbol s :: after =>
      if row.contains s then do
        let (m,after) ← row? fuel tighter after
        rest? fuel row tighter (← combine? s n m) after
      else some (n,ts)
    | ts => some (n,ts)

end

/-- The value of a calculation; for each token the descent takes a step for each row and a few more. -/
def value? (valueOf : List Char → Int) (text : List Char) : Option Int := do
  let ts ← tokens? valueOf 0 text
  match ← row? ((rows.length + 3) * (ts.length + 1)) rows ts with
  | (n,[]) => some n
  | _ => none

end Playout.Shell.Arithmetic
