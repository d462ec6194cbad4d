import Playout.Path

/-!
# The files of a host

Directories and files, by the names that lead to them from the root. A path is
followed name by name, so `..` needs the directory that it leaves, and a path that
ends with a slash needs to end at a directory.
-/
namespace Playout.Host

/-- Why the system refuses what it is asked for. -/
inductive Refusal where
  | noEntry
  | notDirectory
  | isDirectory
  | accessDenied
  | notProgram
  | nameTooLong
  | endOfText
  deriving DecidableEq, Repr, Inhabited

def Refusal.message : Refusal → String
  | noEntry => "No such file or directory (os error 2)"
  | notDirectory => "Not a directory (os error 20)"
  | isDirectory => "Is a directory (os error 21)"
  | accessDenied => "Permission denied (os error 13)"
  | notProgram => "Exec format error (os error 8)"
  | nameTooLong => "File name too long (os error 36)"
  | endOfText => "nul byte found in provided data"

abbrev Place := List (List Char)

/-- What stands at a place. -/
inductive Node where
  | directory
  | file (content : List UInt8) (isProgram : Bool)
  deriving DecidableEq, Inhabited

structure Files where
  nodes : List (Place × Node)
  deriving Inhabited

namespace Files

def empty : Files := ⟨[]⟩

/-- What stands at a place; the root is always there. -/
def node? (f : Files) (place : Place) : Option Node :=
  if place = [] then some .directory else (f.nodes.find? (·.1 = place)).map (·.2)

def longestName : Nat := 255

def follow (f : Files) (place : Place) : List Path.Component → Except Refusal (Place × Node)
  | [] =>
    match f.node? place with
    | some node => .ok (place,node)
    | none => .error .noEntry
  | component :: rest =>
    match f.node? place with
    | none => .error .noEntry
    | some (.file ..) => .error .notDirectory
    | some .directory =>
      match component with
      | .root => f.follow [] rest
      | .current => f.follow place rest
      | .parent => f.follow place.dropLast rest
      | .name text =>
        if longestName < text.length then .error .nameTooLong else f.follow (place ++ [text]) rest

def find (f : Files) (directory : Place) (path : List Char) : Except Refusal (Place × Node) :=
  if path = [] then .error .noEntry
  else if '\x00' ∈ path then .error .endOfText
  else do
    let (place,node) ← f.follow directory (Path.components path)
    match node with
    | .directory => pure (place,node)
    | .file .. => if Path.namesDirectory path then throw .notDirectory else pure (place,node)

def isThere (f : Files) (directory : Place) (path : List Char) : Bool :=
  match f.find directory path with
  | .ok _ => true
  | .error _ => false

def read (f : Files) (directory : Place) (path : List Char) : Except Refusal (List UInt8) := do
  match (← f.find directory path).2 with
  | .file content _ => pure content
  | .directory => throw .isDirectory

def put (f : Files) (place : Place) (node : Node) : Files :=
  ⟨f.nodes.filter (·.1 ≠ place) ++ [(place,node)]⟩

def remove (f : Files) (place : Place) : Files := ⟨f.nodes.filter (·.1 ≠ place)⟩

/-- The files with a directory at a place and wherever the way to it leads, unless something stands there. -/
def withDirectory (f : Files) (place : Place) : Files :=
  ((List.range place.length).map fun n => place.take (n + 1)).foldl
    (fun f place => if (f.node? place).isSome then f else f.put place .directory) f

/-- The files with a file at a place, and directories on the way to it. -/
def withFile (f : Files) (place : Place) (content : List UInt8) (isProgram : Bool) : Files :=
  (f.withDirectory place.dropLast).put place (.file content isProgram)

/-- The place of a file that is to be written at a path: it may be new, in a directory that is there. -/
def writable (f : Files) (directory : Place) (path : List Char) : Except Refusal Place :=
  match f.find directory path with
  | .ok (place,.file ..) => .ok place
  | .ok (_,.directory) => .error .isDirectory
  | .error .noEntry => do
    match (Path.components path).getLast?, Path.namesDirectory path with
    | some (.name text), false =>
      let (place,node) ← f.follow directory (Path.components path).dropLast
      match node with
      | .directory => pure (place ++ [text])
      | .file .. => throw .notDirectory
    | _, _ => throw .noEntry
  | .error why => .error why

/-- The files with `content` written to a path, after what is there if `appends`. -/
def write (f : Files) (directory : Place) (path : List Char) (appends : Bool)
    (content : List UInt8) : Except Refusal Files := do
  let place ← f.writable directory path
  match f.node? place with
  | some (.file old isProgram) =>
    pure (f.put place (.file ((if appends then old else []) ++ content) isProgram))
  | _ => pure (f.put place (.file content false))

end Files

def Place.path (place : Place) : List Char :=
  if place = [] then ['/'] else place.flatMap ('/' :: ·)

def Place.ofPath (path : List Char) : Place :=
  (Path.components path).filterMap fun
    | .name text => some text
    | _ => none

end Playout.Host
