import Playout.Text.Split

/-!
# Paths

Paths as text with slashes between their parts. Empty parts and, unless a
relative path begins with it, the part `.` say nothing and are passed over.
-/
namespace Playout.Path

/-- A part of a path. -/
inductive Component where
  | root
  | current
  | parent
  | name (text : List Char)
  deriving DecidableEq, Repr

/-- The component of one part between slashes, if it says something. -/
def component? (part : List Char) : Option Component :=
  if part = [] ∨ part = ['.'] then none
  else if part = ['.','.'] then some .parent
  else some (.name part)

def components (path : List Char) : List Component :=
  let parts := Text.splitAll '/' path
  match parts with
  | [] => []
  | first :: _ =>
    let start :=
      if path.head? = some '/' then [.root]
      else if first = ['.'] then [.current]
      else []
    start ++ parts.filterMap component?

/-- Whether a path is relative and never leaves the directory that it starts from. -/
def staysInside (path : List Char) : Bool :=
  (components path).all fun
    | .name _ | .current => true
    | .root | .parent => false

/-- A path seen from a directory: with one slash between unless the directory is empty or ends with one; an absolute
    path stands for itself. -/
def join (directory path : List Char) : List Char :=
  if path.head? = some '/' then path
  else if directory = [] ∨ directory.getLast? = some '/' then directory ++ path
  else directory ++ '/' :: path

def namesDirectory (path : List Char) : Bool :=
  path.getLast? == some '/' || path.reverse.take 2 == ['.','/']

def fileName? (path : List Char) : Option (List Char) :=
  match (components path).getLast? with
  | some (.name text) => some text
  | _ => none

/-- The text after the last point of the last component, if a point stands inside it. -/
def extension? (path : List Char) : Option (List Char) := do
  let name ← fileName? path
  match Text.splitLast? '.' name with
  | some ([],_) | none => none
  | some (_,ext) => some ext

end Playout.Path
