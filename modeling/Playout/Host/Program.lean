import Playout.Host.Files
import Playout.Text.Utf8

/-!
# Programs of a host

A host has files, a working directory and a search path. A program is named by a
path, or by a plain name that is looked for along the search path. What is found
is a utility of the system, a program that answers every call alike, or a script
for the shell.
-/
namespace Playout.Host

/-- The utilities of the system. -/
inductive Utility where
  | shell | cat | head | sequence | sleep | echo | printf | test | yes | no | touch | remove
  | makeDirectory
  deriving DecidableEq, Repr

def Utility.ofName? (name : List Char) : Option Utility :=
  [("sh",shell),("dash",shell),("bash",shell),("cat",cat),("head",head),("seq",sequence),
    ("sleep",sleep),("echo",echo),("printf",printf),("test",test),("[",test),("true",yes),
    ("false",no),("touch",touch),("rm",remove),("mkdir",makeDirectory)].findSome? fun (text,utility) =>
      if text.toList = name then some utility else none

/-- What a program that answers every call alike does: it writes its arguments to a file, one a line, if it is given a
    place for them, then its output, and ends with a code. -/
structure Answer where
  output : List UInt8 := []
  errors : List UInt8 := []
  code : Nat := 0
  argumentFile : Option Place := none
  deriving Inhabited

/-- What a host runs. -/
inductive Program where
  | utility (utility : Utility)
  | answer (answer : Answer)
  | script (path text : List Char)

end Playout.Host

namespace Playout

structure Host where
  files : Host.Files
  answers : List (Host.Place × Host.Answer) := []
  directory : Host.Place
  searchPath : List Host.Place
  home : List Char
  deriving Inhabited

namespace Host

def systemPath : List Place := ["/usr/bin".toList,"/bin".toList].map Place.ofPath

/-- The path where nothing is read and what is written is forgotten. -/
def nullPath : List Char := "/dev/null".toList

/-- The files that a host starts with: empty directories where systems have some. -/
def systemFiles : Files :=
  ((["/usr/bin","/bin","/etc","/dev","/tmp"].map fun path => Place.ofPath path.toList).foldl
    Files.withDirectory Files.empty).withFile (Place.ofPath nullPath) [] false

def utilityAt? (place : Place) : Option Utility :=
  if place.dropLast ∈ systemPath then place.getLast?.bind Utility.ofName? else none

/-- The beginning of a script: what runs it. -/
def scriptMark : List Char := ['#','!']

/-- The words of the first line of a script that follow its mark. -/
def interpreter (text : List Char) : List (List Char) :=
  (Text.splitAll ' ' ((text.drop scriptMark.length).takeWhile (· ≠ '\n'))).filter (· ≠ [])

/-- Whether the words after the mark of a script name the shell. -/
def namesShell (words : List (List Char)) : Bool :=
  match words with
  | [] => false
  | first :: rest =>
    let isEnvironment := Place.ofPath first ∈ systemPath.map (· ++ ["env".toList])
    if isEnvironment then (rest.head?.bind Utility.ofName?) == some .shell
    else utilityAt? (Place.ofPath first) == some .shell

def programAt (h : Host) (path : List Char) : Except Refusal Program :=
  let place := Place.ofPath path
  match if path.head? = some '/' then utilityAt? place else none with
  | some utility => if Path.namesDirectory path then .error .notDirectory else .ok (.utility utility)
  | none => do
    let (place,node) ← h.files.find h.directory path
    match node with
    | .directory => throw .accessDenied
    | .file _ false => throw .accessDenied
    | .file content true =>
      match h.answers.find? (·.1 = place) with
      | some (_,answer) => pure (.answer answer)
      | none =>
        let text := Text.Utf8.decodeLossy content
        if text.take scriptMark.length ≠ scriptMark then throw .notProgram
        else if namesShell (interpreter text) then pure (.script path text)
        else throw .noEntry

/-- The first program of a name along some directories; one that may not be run is remembered in case that no other
    follows. -/
def search (h : Host) (name : List Char) (refused : Bool) : List Place → Except Refusal Program
  | [] => .error (if refused then .accessDenied else .noEntry)
  | place :: places =>
    match h.programAt (Path.join place.path name) with
    | .error .accessDenied => h.search name true places
    | .error .noEntry | .error .notDirectory => h.search name refused places
    | answer => answer

def program (h : Host) (name : List Char) : Except Refusal Program :=
  if name = [] then .error .noEntry
  else if '\x00' ∈ name then .error .endOfText
  else if '/' ∈ name then h.programAt name
  else h.search name false h.searchPath

def isProgramAt (h : Host) (path : List Char) : Bool :=
  match h.files.find h.directory path with
  | .ok (_,.file _ isProgram) => isProgram
  | _ => path.head? = some '/' && (utilityAt? (Place.ofPath path)).isSome

/-- A relative path without what says nothing, and without the mark of the working directory at its start. -/
def relativeText (path : List Char) : List Char :=
  Text.joinWith ['/'] ((Path.components path).filterMap fun
    | .name text => some text
    | .parent => some ['.','.']
    | .root => none
    | .current => none)

/-- The path of the program that a name or a path stands for: a path is taken from the working directory, a plain name
    from the first directory of the search path that has it. -/
def which? (h : Host) (name : List Char) : Option (List Char) :=
  if 1 < (Path.components name).length then
    let path := if name.head? = some '/' then name else Path.join h.directory.path (relativeText name)
    if h.isProgramAt path then some path else none
  else
    let candidates := h.searchPath.map fun place : Place => Path.join place.path name
    candidates.find? h.isProgramAt

end Host
end Playout
