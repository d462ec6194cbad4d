import Playout.Path
import Playout.Probe.Report
import Playout.Text.Utf8

/-!
# The library

The media files below the root of the library, as a tree of directories and
files, and what the inspection tool would say about each of them. Looking up a
path fails the way the file system does.
-/
namespace Playout.Catalogue

/-- A media file: what the file system knows about it, and what an inspection would find. -/
structure MediaFile where
  size : Nat
  /-- The time of the last change, in seconds. -/
  modified : Int
  report : Except String Probe.Container
  keyframes : Except String (List Int)
  deriving Inhabited

/-- What stands at a path. -/
inductive Node where
  | directory
  | file (file : MediaFile)
  deriving Inhabited

abbrev Place := List Path.Component

/-- The media files. -/
structure Library where
  root : List Char
  nodes : List (Place × Node)
  unlisted : MediaFile
  deriving Inhabited

namespace Library

def node? (l : Library) (place : Place) : Option Node :=
  (l.nodes.find? fun n => n.1 == place).map (·.2)

/-- The longest name of a file, in bytes. -/
def maxName : Nat := 255

/-- Why a name cannot be looked up, whether there is such a file or not. -/
def nameFault? : Path.Component → Option String
  | .name text =>
    if maxName < (Text.Utf8.encode text).length then some "File name too long (os error 36)" else none
  | _ => none

def walk (l : Library) (place : Place) : List Path.Component → Except String Node
  | [] =>
    match l.node? place with
    | some node => .ok node
    | none => .error "No such file or directory (os error 2)"
  | component :: rest =>
    match l.node? place with
    | some .directory =>
      match nameFault? component with
      | some why => .error why
      | none =>
        l.walk (if component = .parent then place.dropLast else place ++ [component]) rest
    | some (.file _) => .error "Not a directory (os error 20)"
    | none => .error "No such file or directory (os error 2)"

/-- The facts about the file at a path, or why there are none. -/
def stat (l : Library) (path : List Char) : Except String MediaFile :=
  if '\x00' ∈ path then .error "file name contained an unexpected NUL byte"
  else
    match l.walk [] (Path.components path) with
    | .error why => .error why
    | .ok .directory => .error "not a regular file"
    | .ok (.file file) =>
      if Path.namesDirectory path then .error "Not a directory (os error 20)" else .ok file

/-- What the tool finds at a path, whether there is such a file or not. -/
def inspected (l : Library) (path : List Char) : MediaFile :=
  match l.node? (Path.components path) with
  | some (.file file) => file
  | _ => l.unlisted

def put (l : Library) (place : Place) (node : Node) : Library :=
  { l with nodes := l.nodes.filter (·.1 != place) ++ [(place,node)] }

def beginnings (place : Place) : List Place :=
  (List.range (place.length + 1)).map fun n => place.take n

/-- The tree with directories at a place and at every place that it lies in, unless a file is in the way. -/
def makeDirectories? (l : Library) (place : Place) : Option Library :=
  (beginnings place).foldlM (fun l place =>
    match l.node? place with
    | none => some (l.put place .directory)
    | some .directory => some l
    | some (.file _) => none) l

def empty (root : List Char) (unlisted : MediaFile) : Library :=
  let l : Library := ⟨root,[],unlisted⟩
  (l.makeDirectories? (Path.components root)).getD l

/-- The place of a path that starts from the root of the library. -/
def placeOf (l : Library) (path : List Char) : Place := Path.components (Path.join l.root path)

def addFile (l : Library) (path : List Char) (file : MediaFile) : Library :=
  let place := l.placeOf path
  ((l.makeDirectories? place.dropLast).getD l).put place (.file file)

def removeFile? (l : Library) (path : List Char) : Option Library :=
  match l.node? (l.placeOf path) with
  | some (.file _) => some { l with nodes := l.nodes.filter (·.1 != l.placeOf path) }
  | _ => none

end Library
end Playout.Catalogue
