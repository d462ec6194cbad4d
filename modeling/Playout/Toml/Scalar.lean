import Playout.Text.Numeral
import Playout.Toml.Value

/-!
# TOML scalars

Strings, numbers and moments. Every reader takes as much as belongs to the
scalar and returns the rest.
-/
namespace Playout.Toml

def skipBlanks (s : List Char) : List Char := s.dropWhile fun c => c == ' ' || c == '\t'

def newline? : List Char → Option (List Char)
  | '\n' :: rest => some rest
  | '\r' :: '\n' :: rest => some rest
  | _ => none

/-- Whether a character may stand in a comment or a string as itself. -/
def isPrintable (c : Char) : Bool := c == '\t' || (0x20 ≤ c.toNat && c.toNat ≠ 0x7F)

def skipComment? (s : List Char) : Option (List Char) :=
  match s with
  | '#' :: rest =>
    let after := rest.dropWhile isPrintable
    if after = [] ∨ (newline? after).isSome then some after else none
  | _ => some s

def endLine? (s : List Char) : Option (List Char) := do
  let rest ← skipComment? (skipBlanks s)
  if rest = [] then some [] else newline? rest

def skipLines? : Nat → List Char → Option (List Char)
  | 0, s => some s
  | fuel + 1, s => do
    let rest ← skipComment? (skipBlanks s)
    match newline? rest with
    | some rest => skipLines? fuel rest
    | none => some rest

/-! ### Strings -/

def codePoint? (count : Nat) (s : List Char) : Option (Char × List Char) := do
  let digits := s.take count
  if digits.length ≠ count then none
  else do
    let n ← digits.foldlM (fun n c => (Text.hexValue? c).map fun d => 16 * n + d) 0
    if n.isValidChar then some (Char.ofNat n,s.drop count) else none

def escape? : List Char → Option (Char × List Char)
  | 'b' :: rest => some ('\x08',rest)
  | 't' :: rest => some ('\t',rest)
  | 'n' :: rest => some ('\n',rest)
  | 'f' :: rest => some ('\x0c',rest)
  | 'r' :: rest => some ('\r',rest)
  | '"' :: rest => some ('"',rest)
  | '\\' :: rest => some ('\\',rest)
  | 'u' :: rest => codePoint? 4 rest
  | 'U' :: rest => codePoint? 8 rest
  | _ => none

/-- The rest of a string on one line, in which backslashes escape. -/
def basicString? : Nat → List Char → Option (List Char × List Char)
  | fuel + 1, c :: rest =>
    if c = '"' then some ([],rest)
    else if c = '\\' then do
      let (c,rest) ← escape? rest
      let (text,rest) ← basicString? fuel rest
      some (c :: text,rest)
    else if isPrintable c then do
      let (text,rest) ← basicString? fuel rest
      some (c :: text,rest)
    else none
  | _, _ => none

/-- The rest of a string on one line, in which nothing escapes. -/
def literalString? : List Char → Option (List Char × List Char)
  | [] => none
  | c :: rest =>
    if c = '\'' then some ([],rest)
    else if isPrintable c then (literalString? rest).map fun (text,rest) => (c :: text,rest)
    else none

/-- The end of a string of several lines: three quotes, before which one or two may stand that belong to the string. -/
def closing? (quote : Char) (s : List Char) : Option (List Char × List Char) :=
  let quotes := (s.takeWhile (· == quote)).length
  if quotes < 3 then none
  else
    let inside := min (quotes - 3) 2
    some (List.replicate inside quote,s.drop (inside + 3))

/-- Blanks up to a line break, and every blank and line break after it. -/
def lineContinuation? (s : List Char) : Option (List Char) :=
  let isGap := fun (c : Char) => c == ' ' || c == '\t' || c == '\n' || c == '\r'
  match newline? (skipBlanks s) with
  | some rest => some (rest.dropWhile isGap)
  | none => none

/-- The rest of a string of several lines, in which backslashes escape unless it is literal. -/
def longString? (quote : Char) : Nat → List Char → Option (List Char × List Char)
  | fuel + 1, c :: rest =>
    match closing? quote (c :: rest) with
    | some (text,rest) => some (text,rest)
    | none =>
      if c = '\\' ∧ quote = '"' then
        match lineContinuation? rest with
        | some rest => longString? quote fuel rest
        | none => do
          let (c,rest) ← escape? rest
          let (text,rest) ← longString? quote fuel rest
          some (c :: text,rest)
      else
        match newline? (c :: rest) with
        | some rest => (longString? quote fuel rest).map fun (text,rest) => ('\n' :: text,rest)
        | none =>
          if isPrintable c then
            (longString? quote fuel rest).map fun (text,rest) => (c :: text,rest)
          else none
  | _, _ => none

def string? (s : List Char) : Option (List Char × List Char) :=
  let long := fun (quote : Char) (rest : List Char) =>
    longString? quote (rest.length + 1) ((newline? rest).getD rest)
  match s with
  | '"' :: '"' :: '"' :: rest => long '"' rest
  | '\'' :: '\'' :: '\'' :: rest => long '\'' rest
  | '"' :: rest => basicString? (rest.length + 1) rest
  | '\'' :: rest => literalString? rest
  | _ => none

/-! ### Numbers -/

/-- Digits of some alphabet with single underscores between them. -/
def digits? (isDigit : Char → Bool) : List Char → Option (List Char × List Char)
  | [] => none
  | c :: rest =>
    if !isDigit c then none
    else
      match rest with
      | '_' :: rest' => (digits? isDigit rest').map fun (ds,rest) => (c :: ds,rest)
      | rest =>
        match digits? isDigit rest with
        | some (ds,rest) => some (c :: ds,rest)
        | none => if rest.head?.any isDigit then none else some ([c],rest)

def isDecimal (c : Char) : Bool := (Text.digitValue? c).isSome

def inBase (base : Nat) (ds : List Char) : Nat :=
  ds.foldl (fun n c => base * n + (Text.hexValue? c).getD 0) 0

def whole? (i : Int) : Option Toml :=
  if minSigned64 ≤ i ∧ i ≤ maxSigned64 then some (.integer i) else none

/-- A whole number in base two, eight or sixteen, after its mark. -/
def based? (base : Nat) (s : List Char) : Option (Toml × List Char) := do
  let (ds,rest) ← digits? (fun c => (Text.hexValue? c).any (· < base)) s
  some (← whole? (inBase base ds),rest)

def sign : List Char → Bool × List Char
  | '-' :: rest => (true,rest)
  | '+' :: rest => (false,rest)
  | s => (false,s)

def exponentPart? (s : List Char) : Option (Option (Bool × List Char) × List Char) :=
  match s with
  | c :: rest =>
    if c = 'e' ∨ c = 'E' then do
      let (negative,rest) := sign rest
      let (ds,rest) ← digits? isDecimal rest
      some (some (negative,ds),rest)
    else some (none,s)
  | [] => some (none,s)

/-- A decimal number: whole, or with a fraction or an exponent. -/
def decimal? (s : List Char) : Option (Toml × List Char) := do
  let (negative,unsigned) := sign s
  let (whole,rest) ← digits? isDecimal unsigned
  if whole.length > 1 ∧ whole.head? = some '0' then none
  else do
    let (fraction,rest) ← match rest with
      | '.' :: rest => (digits? isDecimal rest).map fun (ds,rest) => (some ds,rest)
      | _ => some (none,rest)
    let (exponent,rest) ← exponentPart? rest
    if fraction.isNone ∧ exponent.isNone then
      let n := (inBase 10 whole : Int)
      some (← whole? (if negative then -n else n),rest)
    else
      let places := fraction.getD []
      let power := match exponent with
        | some (true,ds) => -(inBase 10 ds : Int)
        | some (false,ds) => (inBase 10 ds : Int)
        | none => 0
      let x := Binary64.ofDecimal negative (inBase 10 (whole ++ places)) (power - places.length)
      if x == 1.0 / 0.0 then none else some (.float x,rest)

def special? (s : List Char) : Option (Toml × List Char) :=
  let (negative,s) := sign s
  let signed := fun (x : Float) => if negative then -x else x
  match s with
  | 'i' :: 'n' :: 'f' :: rest => some (.float (signed (1.0 / 0.0)),rest)
  | 'n' :: 'a' :: 'n' :: rest => some (.float (signed (0.0 / 0.0)),rest)
  | _ => none

/-! ### Moments -/

def fixedDigits? (count : Nat) (s : List Char) : Option (Nat × List Char) := do
  let ds := s.take count
  if ds.length ≠ count then none
  else do
    let n ← Text.digits? ds
    some (n,s.drop count)

def expect? (c : Char) : List Char → Option (List Char)
  | d :: rest => if d = c then some rest else none
  | [] => none

def daysIn (year month : Nat) : Nat :=
  if month = 2 then
    if year % 4 = 0 ∧ (year % 100 ≠ 0 ∨ year % 400 = 0) then 29 else 28
  else if month = 4 ∨ month = 6 ∨ month = 9 ∨ month = 11 then 30
  else 31

def date? (s : List Char) : Option (List Char) := do
  let (year,s) ← fixedDigits? 4 s
  let (month,s) ← fixedDigits? 2 (← expect? '-' s)
  let (day,s) ← fixedDigits? 2 (← expect? '-' s)
  if 1 ≤ month ∧ month ≤ 12 ∧ 1 ≤ day ∧ day ≤ daysIn year month then some s else none

def time? (s : List Char) : Option (List Char) := do
  let (hour,s) ← fixedDigits? 2 s
  let (minute,s) ← fixedDigits? 2 (← expect? ':' s)
  let (second,s) ← fixedDigits? 2 (← expect? ':' s)
  if 23 < hour ∨ 59 < minute ∨ 60 < second then none
  else
    match s with
    | '.' :: rest =>
      let (ds,rest) := rest.span isDecimal
      if ds = [] then none else some rest
    | _ => some s

/-- What follows the distance from universal time, or nothing of it. -/
def offset? (s : List Char) : Option (List Char) :=
  match s with
  | 'Z' :: rest | 'z' :: rest => some rest
  | c :: rest =>
    if c = '+' ∨ c = '-' then do
      let (hour,s) ← fixedDigits? 2 rest
      let (minute,s) ← fixedDigits? 2 (← expect? ':' s)
      if 23 < hour ∨ 59 < minute then none else some s
    else some s
  | [] => some s

/-- What follows a date, a time of day, or both. -/
def moment? (s : List Char) : Option (List Char) :=
  match date? s with
  | some rest =>
    match rest with
    | c :: after =>
      if (c = 'T' ∨ c = 't' ∨ c = ' ') ∧ after.head?.any isDecimal then (time? after).bind offset?
      else some rest
    | [] => some rest
  | none => time? s

def looksLikeMoment (s : List Char) : Bool :=
  match s with
  | a :: b :: ':' :: _ => isDecimal a && isDecimal b
  | a :: b :: c :: d :: '-' :: _ => isDecimal a && isDecimal b && isDecimal c && isDecimal d
  | _ => false

def plain? (s : List Char) : Option (Toml × List Char) :=
  match s with
  | 't' :: 'r' :: 'u' :: 'e' :: rest => some (.boolean true,rest)
  | 'f' :: 'a' :: 'l' :: 's' :: 'e' :: rest => some (.boolean false,rest)
  | '0' :: 'x' :: rest => based? 16 rest
  | '0' :: 'o' :: rest => based? 8 rest
  | '0' :: 'b' :: rest => based? 2 rest
  | _ =>
    if looksLikeMoment s then (moment? s).map fun rest => (.moment,rest)
    else
      match special? s with
      | some found => some found
      | none => decimal? s

end Playout.Toml
