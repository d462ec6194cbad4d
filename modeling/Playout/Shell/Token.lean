import Playout.Shell.Command
import Playout.Text.Numeral

/-!
# Tokens of the shell

A script is cut into words, operators and ends of lines. Quotes and backslashes
take from characters what they mean, in double quotes all but `$` and backslash;
a `#` at the start of a word begins a comment.
-/
namespace Playout.Shell

/-- A token of a script. -/
inductive Token where
  | word (w : Word)
  | operator (text : String)
  | redirect (channel : Option Nat) (text : String)
  | line
  deriving DecidableEq, Repr, Inhabited

def isNameChar (c : Char) : Bool := c.isAlphanum || c == '_'

def isName (s : List Char) : Bool :=
  match s with
  | [] => false
  | c :: _ => !c.isDigit && s.all isNameChar

def braced? (inner : List Char) : Option Parameter :=
  if isName inner then some (.variable inner)
  else
    match Text.digits? inner, inner with
    | some n, _ => some (.argument n)
    | none, ['@'] => some .arguments
    | none, ['#'] => some .count
    | none, ['?'] => some .status
    | none, _ => none

/-- What a reader of tokens is inside of. -/
inductive Quote where
  | none
  | single
  | double
  deriving DecidableEq

/-- The number of characters before the bracket that closes `depth` open ones and the one before the text. -/
def toClosing? (quote : Quote) (depth : Nat) : List Char → Option Nat
  | [] => none
  | '\\' :: c :: cs =>
    if quote = .single then (toClosing? quote depth (c :: cs)).map (· + 1)
    else (toClosing? quote depth cs).map (· + 2)
  | c :: cs =>
    match quote, c with
    | .none, '\x27' => (toClosing? .single depth cs).map (· + 1)
    | .single, '\x27' => (toClosing? .none depth cs).map (· + 1)
    | .none, '"' => (toClosing? .double depth cs).map (· + 1)
    | .double, '"' => (toClosing? .none depth cs).map (· + 1)
    | .none, '(' => (toClosing? quote (depth + 1) cs).map (· + 1)
    | .none, ')' =>
      match depth with
      | 0 => some 0
      | depth + 1 => (toClosing? quote depth cs).map (· + 1)
    | quote, _ => (toClosing? quote depth cs).map (· + 1)

/-- The script up to the mark that closes it, where a backslash keeps the mark, a `$` and itself, and the number of its
    characters. -/
def marked? : List Char → Option (List Char × Nat)
  | [] => none
  | '\x60' :: _ => some ([],0)
  | '\\' :: c :: cs => do
    let (script,length) ← marked? cs
    some (if c ∈ ['\x60','$','\\'] then c :: script else '\\' :: c :: script,length + 2)
  | c :: cs => do
    let (script,length) ← marked? cs
    some (c :: script,length + 1)

/-- The parameter that some characters after a `$` name, and how many there are. -/
def parameter? : List Char → Option (Parameter × Nat)
  | '#' :: _ => some (.count,1)
  | '?' :: _ => some (.status,1)
  | '$' :: _ => some (.process,1)
  | '!' :: _ => some (.lastJob,1)
  | '@' :: _ | '*' :: _ => some (.arguments,1)
  | '\x7b' :: cs =>
    let inner := cs.takeWhile (· ≠ '\x7d')
    if cs.length = inner.length then none
    else
      let found := match Text.splitFirst? ':' inner with
        | some (inner,'-' :: text) => (braced? inner).map fun p => Parameter.orElse p text
        | _ => braced? inner
      found.map fun p => (p,inner.length + 2)
  | '(' :: cs => do
    let length ← toClosing? .none 0 cs
    match cs.take length with
    | '(' :: inner => some (.calculation inner.dropLast,length + 2)
    | script => some (.output script,length + 2)
  | c :: cs =>
    if c.isDigit then some (.argument (c.toNat - '0'.toNat),1)
    else
      let name := (c :: cs).takeWhile isNameChar
      if isName name then some (.variable name,name.length) else none
  | [] => none

/-- The parameter that a character begins with those after it, and how many of these belong to it. -/
def parameterFrom? (c : Char) (cs : List Char) : Option (Parameter × Nat) :=
  if c = '$' then parameter? cs
  else if c = '\x60' then (marked? cs).map fun (script,length) => (.output script,length + 1)
  else none

/-- A word that is being read: its pieces in reverse, if it has begun. -/
structure Reading where
  pieces : Option (List Piece) := .none
  tokens : List Token := []

namespace Reading

def add (r : Reading) (c : Char) (isQuoted : Bool) : Reading :=
  match r.pieces with
  | some (.text s quoted :: pieces) =>
    if quoted = isQuoted then { r with pieces := some (.text (s ++ [c]) quoted :: pieces) }
    else { r with pieces := some (.text [c] isQuoted :: .text s quoted :: pieces) }
  | pieces => { r with pieces := some (.text [c] isQuoted :: pieces.getD []) }

def addPiece (r : Reading) (p : Piece) : Reading := { r with pieces := some (p :: r.pieces.getD []) }

def endWord (r : Reading) : Reading :=
  match r.pieces with
  | some pieces => ⟨.none,.word pieces.reverse :: r.tokens⟩
  | .none => r

def addToken (r : Reading) (t : Token) : Reading :=
  let r := r.endWord
  { r with tokens := t :: r.tokens }

/-- Ends the word before a redirection; a word of digits alone is its channel. -/
def addRedirect (r : Reading) (text : String) : Reading :=
  match r.pieces with
  | some [.text s false] =>
    match Text.digits? s with
    | some n => ⟨.none,.redirect (some n) text :: r.tokens⟩
    | none => r.addToken (.redirect .none text)
  | _ => r.addToken (.redirect .none text)

end Reading

/-- The operators of several characters, the longer ones first. -/
def operators : List String := ["&&","||",";;",";","&","|","(",")"]

def redirectOperators : List String := [">>",">&",">|","<&",">","<"]

def operator? (choices : List String) (s : List Char) : Option String :=
  choices.find? fun o => (Text.dropStart? o.toList s).isSome

/-- Reads tokens after `skip` characters that belong to the previous one. -/
def tokensFrom (quote : Quote) (r : Reading) : Nat → List Char → Option Reading
  | _, [] => if quote = .none then some r.endWord else none
  | skip + 1, _ :: cs => tokensFrom quote r skip cs
  | 0, c :: cs =>
    match quote with
    | .single => if c = '\x27' then tokensFrom .none r 0 cs else tokensFrom quote (r.add c true) 0 cs
    | .double =>
      if c = '"' then tokensFrom .none r 0 cs
      else if c = '\\' then
        match cs with
        | '\n' :: _ => tokensFrom quote r 1 cs
        | d :: _ =>
          if d ∈ ['$','"','\\','\x60'] then tokensFrom quote (r.add d true) 1 cs
          else tokensFrom quote (r.add c true) 0 cs
        | [] => none
      else
        match parameterFrom? c cs with
        | some (p,length) => tokensFrom quote (r.addPiece (.parameter p true)) length cs
        | none => tokensFrom quote (r.add c true) 0 cs
    | .none =>
      if c = '\x27' then tokensFrom .single (r.addPiece (.text [] true)) 0 cs
      else if c = '"' then tokensFrom .double (r.addPiece (.text [] true)) 0 cs
      else if c = '\\' then
        match cs with
        | '\n' :: _ => tokensFrom quote r 1 cs
        | d :: _ => tokensFrom quote (r.add d true) 1 cs
        | [] => tokensFrom quote (r.add c true) 0 cs
      else if c = '$' || c = '\x60' then
        match parameterFrom? c cs with
        | some (p,length) => tokensFrom quote (r.addPiece (.parameter p false)) length cs
        | none => tokensFrom quote (r.add c false) 0 cs
      else if c = '\n' then tokensFrom quote (r.addToken .line) 0 cs
      else if c = ' ' || c = '\t' then tokensFrom quote r.endWord 0 cs
      else if c = '#' && r.pieces.isNone then
        tokensFrom quote r (cs.takeWhile (· ≠ '\n')).length cs
      else
        match operator? redirectOperators (c :: cs) with
        | some o => tokensFrom quote (r.addRedirect o) (o.length - 1) cs
        | none =>
          match operator? operators (c :: cs) with
          | some o => tokensFrom quote (r.addToken (.operator o)) (o.length - 1) cs
          | none => tokensFrom quote (r.add c false) 0 cs

/-- The tokens of a script; none if a quote is not closed. -/
def tokens? (script : List Char) : Option (List Token) :=
  (tokensFrom .none {} 0 script).map fun r => r.tokens.reverse

end Playout.Shell
