import Playout.Host.Program
import Playout.Text.Blank
import Playout.Text.Numeral

/-!
# Utilities

What the utilities of the system write and how they end, as functions of their
arguments, their input and the files.
-/
namespace Playout.Shell
open Playout.Host

/-- What a utility leaves. -/
structure Outcome where
  output : List UInt8 := []
  errors : List UInt8 := []
  status : Nat := 0
  files : Files

def bytes (s : String) : List UInt8 := Text.Utf8.encode s.toList

def octal? (c : Char) : Option Nat := (Text.digitValue? c).filter (· < 8)

/-- The number of up to `most` octal digits that a text begins with, and how many there are. -/
def octalNumber (most : Nat) (s : List Char) : Nat × Nat :=
  let digits := (s.take most).takeWhile fun c => (octal? c).isSome
  (digits.foldl (fun n c => 8 * n + (octal? c).getD 0) 0,digits.length)

/-- The character that a letter after a backslash stands for. -/
def escapeByte? : Char → Option UInt8
  | 'a' => some 7
  | 'b' => some 8
  | 'f' => some 12
  | 'n' => some 10
  | 'r' => some 13
  | 't' => some 9
  | 'v' => some 11
  | '\\' => some 92
  | _ => none

/-- What an escape is: some bytes after a number of characters, or the end of all output. -/
inductive Escape where
  | bytes (content : List UInt8) (length : Nat)
  | stop

/-- The escape of the characters after a backslash, if they are one. An octal number needs a zero before it where
    `needsZero` says so. -/
def escape? (needsZero : Bool) : List Char → Option Escape
  | 'c' :: _ => if needsZero then some .stop else none
  | c :: cs =>
    match escapeByte? c with
    | some b => some (.bytes [b] 1)
    | none =>
      if needsZero then
        if c = '0' then
          let (n,length) := octalNumber 3 cs
          some (.bytes [n.toUInt8] (length + 1))
        else none
      else if (octal? c).isSome then
        let (n,length) := octalNumber 3 (c :: cs)
        some (.bytes [n.toUInt8] length)
      else none
  | [] => none

/-- A text with its escapes replaced, after `skip` characters that belong to the previous one, and whether an escape
    ends all output. -/
def unescape (needsZero : Bool) : Nat → List Char → List UInt8 × Bool
  | _, [] => ([],false)
  | skip + 1, _ :: cs => unescape needsZero skip cs
  | 0, c :: cs =>
    match if c = '\\' then escape? needsZero cs else none with
    | some .stop => ([],true)
    | some (.bytes content length) =>
      let (rest,stops) := unescape needsZero length cs
      (content ++ rest,stops)
    | none =>
      let (rest,stops) := unescape needsZero 0 cs
      (Text.Utf8.encodeChar c ++ rest,stops)

/-- The output of the program `echo`, which knows no escapes. -/
def plainEcho (arguments : List (List Char)) : List UInt8 :=
  match arguments with
  | ['-','n'] :: rest => Text.Utf8.encode (Text.joinWith [' '] rest)
  | all => Text.Utf8.encode (Text.joinWith [' '] all) ++ [10]

/-- The output of `echo` in the shell: its arguments with their escapes replaced, and the end of a line unless the first
    argument is `-n`. -/
def echo (arguments : List (List Char)) : List UInt8 :=
  let (arguments,ends) := match arguments with
    | ['-','n'] :: rest => (rest,false)
    | all => (all,true)
  let (content,stops) := unescape true 0 (Text.joinWith [' '] arguments)
  if ends && !stops then content ++ [10] else content

/-- The whole number that a text denotes, zero if it denotes none. -/
def numberOf (s : List Char) : Int := (Text.integer? minSigned64 maxSigned64 s).getD 0

/-- How an argument is written: on which side, with what before it, and in how many places. -/
structure Layout where
  isLeft : Bool := false
  isZero : Bool := false
  isSigned : Bool := false
  isSpaced : Bool := false
  width : Nat := 0
  precision : Option Nat := none

namespace Layout

def marks (layout : Layout) : List Char → Layout × List Char
  | '-' :: cs => marks { layout with isLeft := true } cs
  | '0' :: cs => marks { layout with isZero := true } cs
  | '+' :: cs => marks { layout with isSigned := true } cs
  | ' ' :: cs => marks { layout with isSpaced := true } cs
  | cs => (layout,cs)

/-- Takes a layout: its marks, its width, and its precision behind a point. -/
def read (cs : List Char) : Layout × List Char :=
  let (layout,cs) := marks {} cs
  let (width,cs) := cs.span Char.isDigit
  let layout := { layout with width := (Text.digits? width).getD 0 }
  match cs with
  | '.' :: cs =>
    let (precision,cs) := cs.span Char.isDigit
    ({ layout with precision := (Text.digits? precision).getD 0 },cs)
  | cs => (layout,cs)

def place (layout : Layout) (content : List UInt8) : List UInt8 :=
  let space := List.replicate (layout.width - content.length) 32
  if layout.isLeft then content ++ space else space ++ content

def text (layout : Layout) (content : List UInt8) : List UInt8 :=
  layout.place (content.take (layout.precision.getD content.length))

def number (layout : Layout) (isNegative : Bool) (digits : List Char) : List UInt8 :=
  let sign := if isNegative then ['-'] else if layout.isSigned then ['+']
    else if layout.isSpaced then [' '] else []
  let fewest := match layout.precision with
    | some n => n
    | none => if layout.isZero && !layout.isLeft then layout.width - sign.length else 0
  layout.place (Text.Utf8.encode (sign ++ List.replicate (fewest - digits.length) '0' ++ digits))

/-- An argument as the letter of a conversion says, if there is such a letter. -/
def convert? (layout : Layout) (letter : Char) (argument : List Char) : Option (List UInt8) :=
  let n := numberOf argument
  match letter with
  | 's' => some (layout.text (Text.Utf8.encode argument))
  | 'c' => some (layout.text (Text.Utf8.encode (argument.take 1)))
  | 'b' => some (layout.text (unescape true 0 argument).1)
  | 'd' | 'i' => some (layout.number (n < 0) (Text.decimal n.natAbs))
  | 'u' => some (layout.number false (Text.decimal n.toNat))
  | 'x' => some (layout.number false (Text.hexadecimal 1 n.toNat))
  | 'X' => some (layout.number false ((Text.hexadecimal 1 n.toNat).map Char.toUpper))
  | 'o' => some (layout.number false (Nat.toDigits 8 n.toNat))
  | _ => none

end Layout

/-- The output of a format and the arguments that it leaves, after `skip` characters that belong to the previous one. -/
def formatOnce : Nat → List (List Char) → List Char → List UInt8 × List (List Char)
  | _, arguments, [] => ([],arguments)
  | skip + 1, arguments, _ :: cs => formatOnce skip arguments cs
  | 0, arguments, c :: cs =>
    let argument := arguments.head?.getD []
    let put := fun (content : List UInt8) (length : Nat) (arguments : List (List Char)) =>
      let (rest,left) := formatOnce length arguments cs
      (content ++ rest,left)
    if c = '\\' then
      match escape? false cs with
      | some (.bytes content length) => put content length arguments
      | _ => put [92] 0 arguments
    else if c = '%' then
      let (layout,rest) := Layout.read cs
      match cs, rest with
      | '%' :: _, _ => put [37] 1 arguments
      | _, letter :: _ =>
        match layout.convert? letter argument with
        | some content => put content (cs.length - rest.length + 1) arguments.tail
        | none => put [37] 0 arguments
      | _, [] => put [37] 0 arguments
    else put (Text.Utf8.encodeChar c) 0 arguments

/-- The output of `printf`: the format is used again while it takes arguments and some are left. -/
def formatAll (format : List Char) : Nat → List (List Char) → List UInt8
  | 0, _ => []
  | fuel + 1, arguments =>
    let (content,left) := formatOnce 0 arguments format
    if left.isEmpty || left.length = arguments.length then content
    else content ++ formatAll format fuel left

/-- Whether a test about files or texts holds; `none` if it is not well-formed. -/
def test? (h : Host) (isThere : List Char → Bool) : List (List Char) → Option Bool
  | [] => some false
  | [['!']] => some true
  | ['!'] :: rest => (test? h isThere rest).map not
  | [s] => some (s ≠ [])
  | [operator,s] =>
    let node := h.files.find h.directory s
    match String.ofList operator with
    | "-n" => some (s ≠ [])
    | "-z" => some (s = [])
    | "-e" => some (isThere s)
    | "-f" => some (match node with
      | .ok (_,.file ..) => true
      | _ => false)
    | "-d" => some (match node with
      | .ok (_,.directory) => true
      | _ => false)
    | "-s" => some (match node with
      | .ok (_,.file content _) => content ≠ []
      | .ok (_,.directory) => true
      | _ => false)
    | "-r" | "-w" => some (isThere s)
    | "-x" => some (match node with
      | .ok (_,.directory) => true
      | _ => h.isProgramAt s)
    | _ => none
  | [a,operator,b] =>
    match String.ofList operator with
    | "=" => some (a = b)
    | "!=" => some (a ≠ b)
    | "-eq" => some (numberOf a = numberOf b)
    | "-ne" => some (numberOf a ≠ numberOf b)
    | "-lt" => some (numberOf a < numberOf b)
    | "-le" => some (numberOf a ≤ numberOf b)
    | "-gt" => some (numberOf b < numberOf a)
    | "-ge" => some (numberOf b ≤ numberOf a)
    | _ => none
  | _ => none

/-- The status of a test: zero if it holds, one if not, two if it is not well-formed. -/
def testStatus (h : Host) (name : List Char) (arguments : List (List Char)) : Nat :=
  let arguments := if name = ['['] then
      if arguments.getLast? = some [']'] then some arguments.dropLast else none
    else some arguments
  match arguments.bind (test? h (h.files.isThere h.directory)) with
  | some true => 0
  | some false => 1
  | none => 2

/-- What `cat` leaves: the contents of its files, or its input. -/
def cat (h : Host) (input : List UInt8) (arguments : List (List Char)) : Outcome :=
  let names := arguments.filter (· ≠ ['-','u'])
  let start : Outcome := { files := h.files }
  (if names.isEmpty then [['-']] else names).foldl (fun o name =>
    if name = ['-'] then { o with output := o.output ++ input }
    else
      match h.files.read h.directory name with
      | .ok content => { o with output := o.output ++ content }
      | .error why =>
        let reason := ((why.message.splitOn " (os").head?).getD ""
        { o with errors := o.errors ++ bytes ("cat: " ++ String.ofList name ++ ": " ++ reason ++ "\n"), status := 1 })
    start

/-- The bytes that are taken of a file or of a path with no end of zeros. -/
def beginning (h : Host) (count : Nat) (path : List Char) : Except Refusal (List UInt8) :=
  if path = "/dev/zero".toList then .ok (List.replicate count 0)
  else (h.files.read h.directory path).map (·.take count)

/-- The first lines of some bytes. -/
def firstLines : Nat → List UInt8 → List UInt8
  | 0, _ => []
  | _, [] => []
  | n + 1, b :: bs => if b = 10 then b :: firstLines n bs else b :: firstLines (n + 1) bs

/-- What `head` leaves: the first bytes or lines of a file, or of its input. -/
def head (h : Host) (input : List UInt8) (arguments : List (List Char)) : Outcome :=
  let (byBytes,count,names) := match arguments with
    | ['-','c'] :: n :: names => (true,(Text.digits? n).getD 0,names)
    | ['-','n'] :: n :: names => (false,(Text.digits? n).getD 0,names)
    | ('-' :: 'c' :: n) :: names => (true,(Text.digits? n).getD 0,names)
    | ('-' :: 'n' :: n) :: names => (false,(Text.digits? n).getD 0,names)
    | ('-' :: n) :: names => (false,(Text.digits? n).getD 0,names)
    | names => (false,10,names)
  let content : Except Refusal (List UInt8) := match names with
    | [] | ['-'] :: _ => .ok (if byBytes then input.take count else input)
    | name :: _ => if byBytes then beginning h count name else h.files.read h.directory name
  match content with
  | .ok content =>
    { output := if byBytes then content else firstLines count content, files := h.files }
  | .error why =>
    let reason := ((why.message.splitOn " (os").head?).getD ""
    let name := String.ofList (names.head?.getD [])
    { errors := bytes ("head: cannot open '" ++ name ++ "' for reading: " ++ reason ++ "\n")
      status := 1
      files := h.files }

/-- The lines of `seq`: the whole numbers from one to another in equal steps. -/
def sequence (arguments : List (List Char)) : List UInt8 :=
  let (first,step,last) := match arguments.map numberOf with
    | [last] => (1,1,last)
    | [first,last] => (first,1,last)
    | first :: step :: last :: _ => (first,step,last)
    | [] => (1,1,0)
  let count := if step = 0 then 0 else (Int.fdiv (last - first) step + 1).toNat
  (List.range count).flatMap fun (n : Nat) => bytes (toString (first + step * (n : Int)) ++ "\n")

def changeEach (files : Files) (change : Files → List Char → Except Refusal Files)
    (paths : List (List Char)) : Outcome :=
  paths.foldl (fun o path =>
    match change o.files path with
    | .ok files => { o with files }
    | .error _ => { o with status := 1 }) { files }

/-- What a utility leaves, the shell and `sleep` apart, which take their time. -/
def runUtility (h : Host) (input : List UInt8) (utility : Utility) (name : List Char)
    (arguments : List (List Char)) : Outcome :=
  let start : Outcome := { files := h.files }
  let paths := arguments.filter fun a => a.head? ≠ some '-'
  match utility with
  | .shell | .sleep | .yes => start
  | .no => { start with status := 1 }
  | .cat => cat h input arguments
  | .head => head h input arguments
  | .sequence => { start with output := sequence arguments }
  | .echo => { start with output := plainEcho arguments }
  | .printf =>
    match if arguments.head? = some ['-','-'] then arguments.tail else arguments with
    | format :: rest => { start with output := formatAll format (rest.length + 1) rest }
    | [] =>
      { start with
        errors := bytes "printf: missing operand\nTry 'printf --help' for more information.\n"
        status := 1 }
  | .test => { start with status := testStatus h name arguments }
  | .touch => changeEach h.files (fun files path => files.write h.directory path true []) paths
  | .remove =>
    changeEach h.files (fun files path => do pure (files.remove (← files.find h.directory path).1)) paths
  | .makeDirectory =>
    changeEach h.files (fun files path => do
      match files.writable h.directory path with
      | .ok place => pure (files.put place .directory)
      | .error why => throw why) paths

/-- The time that `sleep` takes, in microseconds. -/
def sleepMicros (arguments : List (List Char)) : Nat :=
  arguments.foldl (fun total a =>
    let (a,unit) := match a.getLast? with
      | some 's' => (a.dropLast,1)
      | some 'm' => (a.dropLast,60)
      | some 'h' => (a.dropLast,3600)
      | _ => (a,1)
    let (whole,fraction) := (Text.splitFirst? '.' a).getD (a,[])
    let micros := (Text.digits? ((fraction ++ List.replicate 6 '0').take 6)).getD 0
    total + (((Text.digits? whole).getD 0) * 1000000 + micros) * unit) 0

end Playout.Shell
