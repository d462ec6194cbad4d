import Playout.Toml.Scalar

/-!
# Reading TOML

A document is a sequence of lines: keys with values, and headers that name the
table which the following keys belong to. A key is given once, a table is opened
by one header at most, and a table that was written in one way is not added to
in another.
-/
namespace Playout.Toml

/-- The greatest depth that values nest to. -/
def maxDepth : Nat := 79

def isBare (c : Char) : Bool :=
  ('a' ≤ c && c ≤ 'z') || ('A' ≤ c && c ≤ 'Z') || ('0' ≤ c && c ≤ '9') || c == '-' || c == '_'

/-- One part of a key: bare, or a string on one line. -/
def simpleKey? (s : List Char) : Option (List Char × List Char) :=
  match s with
  | '"' :: rest => basicString? (rest.length + 1) rest
  | '\'' :: rest => literalString? rest
  | _ =>
    match s.span isBare with
    | ([],_) => none
    | (name,rest) => some (name,rest)

def key? : Nat → List Char → Option (List (List Char) × List Char)
  | 0, _ => none
  | fuel + 1, s => do
    let (part,rest) ← simpleKey? (skipBlanks s)
    match skipBlanks rest with
    | '.' :: rest => (key? fuel rest).map fun (parts,rest) => (part :: parts,rest)
    | rest => some ([part],rest)

mutual
/-- A value; `depth` bounds how deep the arrays and tables in it may nest. -/
def value? (depth fuel : Nat) (s : List Char) : Option (Toml × List Char) :=
  match fuel with
  | 0 => none
  | fuel + 1 =>
    match s with
    | '"' :: _ | '\'' :: _ => (string? s).map fun (text,rest) => (.string text,rest)
    | '[' :: rest =>
      match depth with
      | 0 => none
      | depth + 1 => (items? depth fuel [] rest).map fun (items,rest) => (.array items,rest)
    | '\x7b' :: rest =>
      match depth with
      | 0 => none
      | depth + 1 =>
        match skipBlanks rest with
        | '\x7d' :: rest => some (.table .inline [],rest)
        | rest =>
          (members? depth fuel [] rest).map fun (members,rest) => (.table .inline members,rest)
    | _ => plain? s
termination_by fuel

/-- The items of an array up to its end, after those in `done`, which are in reverse. -/
def items? (depth fuel : Nat) (done : List Toml) (s : List Char) : Option (List Toml × List Char) :=
  match fuel with
  | 0 => none
  | fuel + 1 => do
    let s ← skipLines? (s.length + 1) s
    match s with
    | ']' :: rest => some (done.reverse,rest)
    | _ =>
      let (item,rest) ← value? depth fuel s
      let rest ← skipLines? (rest.length + 1) rest
      match rest with
      | ',' :: rest => items? depth fuel (item :: done) rest
      | ']' :: rest => some ((item :: done).reverse,rest)
      | _ => none
termination_by fuel

def members? (depth fuel : Nat) (done : Members) (s : List Char) : Option (Members × List Char) :=
  match fuel with
  | 0 => none
  | fuel + 1 => do
    let (parts,rest) ← key? maxDepth s
    let rest ← expect? '=' rest
    let (value,rest) ← value? depth fuel (skipBlanks rest)
    let last ← parts.getLast?
    let done ← insert? last value parts.dropLast done
    match skipBlanks rest with
    | ',' :: rest => members? depth fuel done rest
    | '\x7d' :: rest => some (done,rest)
    | _ => none
termination_by fuel
end

/-- Applies a change to the table at the end of a path of headers; tables on the way are made as needed, one between
    braces is not entered, and the last table of a repeated header stands for all of them. -/
def under? (change : Members → Option Members) : List (List Char) → Members → Option Members
  | [], members => change members
  | step :: path, members =>
    match find? step members with
    | none => (under? change path []).map fun inner => put step (.table .implied inner) members
    | some (.table .inline _) => none
    | some (.table origin inner) =>
      (under? change path inner).map fun inner => put step (.table origin inner) members
    | some (.tables (inner :: others)) =>
      (under? change path inner).map fun inner => put step (.tables (inner :: others)) members
    | some _ => none

/-- Opens the table of a header. One that headers of inner tables implied is opened with what it holds. -/
def openTable? (name : List Char) (members : Members) : Option Members :=
  match find? name members with
  | none => some (put name (.table .explicit []) members)
  | some (.table .implied inner) => some (put name (.table .explicit inner) members)
  | some _ => none

def openItem? (name : List Char) (members : Members) : Option Members :=
  match find? name members with
  | none => some (put name (.tables [[]]) members)
  | some (.tables items) => some (put name (.tables ([] :: items)) members)
  | some _ => none

/-- Everything read so far, and the table that the next keys belong to. -/
structure Document where
  root : Members
  current : List (List Char)

def closeHeader? (repeated : Bool) (s : List Char) : Option (List Char) := do
  let rest ← expect? ']' s
  let rest ← if repeated then expect? ']' rest else some rest
  endLine? rest

def header? (repeated : Bool) (d : Document) (s : List Char) : Option (Document × List Char) := do
  let (path,rest) ← key? maxDepth s
  let rest ← closeHeader? repeated rest
  let name ← path.getLast?
  let root ← under? (if repeated then openItem? name else openTable? name) path.dropLast d.root
  some (⟨root,path⟩,rest)

def pair? (d : Document) (s : List Char) : Option (Document × List Char) := do
  let (parts,rest) ← key? maxDepth s
  let rest ← expect? '=' rest
  let rest := skipBlanks rest
  let (value,rest) ← value? maxDepth (2 * rest.length + 2) rest
  let rest ← endLine? rest
  let name ← parts.getLast?
  let root ← under? (insert? name value parts.dropLast) d.current d.root
  some (⟨root,d.current⟩,rest)

def line? (d : Document) (s : List Char) : Option (Document × List Char) :=
  match skipBlanks s with
  | [] => some (d,[])
  | '[' :: '[' :: rest => header? true d rest
  | '[' :: rest => header? false d rest
  | '#' :: rest => (endLine? ('#' :: rest)).map fun rest => (d,rest)
  | c :: rest =>
    match newline? (c :: rest) with
    | some rest => some (d,rest)
    | none => pair? d (c :: rest)

/-- Reads all lines; each is at least one character long. -/
def document? : Nat → Document → List Char → Option Document
  | _, d, [] => some d
  | 0, _, _ => none
  | fuel + 1, d, s =>
    match line? d s with
    | some (d,rest) => document? fuel d rest
    | none => none

def read? (s : List Char) : Option Members :=
  let s := match s with
    | '\uFEFF' :: rest => rest
    | s => s
  (document? s.length ⟨[],[]⟩ s).map Document.root

end Playout.Toml
