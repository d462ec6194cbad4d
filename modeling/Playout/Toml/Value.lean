import Playout.Binary64.Reader

/-!
# TOML values

A table knows how it was written, since that decides whether a later line may
add to it.
-/
namespace Playout

/-- How a table was written. -/
inductive Toml.Origin where
  | explicit
  | inline
  | implied
  | dotted
  deriving DecidableEq, Repr

/-- A TOML value. -/
inductive Toml where
  | string (text : List Char)
  | integer (value : Int)
  | float (value : Float)
  | boolean (value : Bool)
  | moment
  | array (items : List Toml)
  | table (origin : Toml.Origin) (members : List (List Char × Toml))
  /-- The tables of one repeated header, the last one first. -/
  | tables (items : List (List (List Char × Toml)))
  deriving Inhabited

namespace Toml

abbrev Members := List (List Char × Toml)

def find? (key : List Char) (members : Members) : Option Toml :=
  (members.find? fun m => m.1 == key).map (·.2)

/-- Members with the value of a key replaced, or added at the end. -/
def put (key : List Char) (value : Toml) : Members → Members
  | [] => [(key,value)]
  | m :: rest => if m.1 = key then (key,value) :: rest else m :: put key value rest

/-- Adds a key at the end of a path of dotted keys, where the key must be new. The last table on the way must have been
    written by dotted keys alone; those before it may as well have been implied by headers, or be the last one of a
    repeated header. -/
def insert? (key : List Char) (value : Toml) : List (List Char) → Members → Option Members
  | [], members =>
    match find? key members with
    | some _ => none
    | none => some (put key value members)
  | step :: path, members =>
    match find? step members with
    | none => (insert? key value path []).map fun inner => put step (.table .dotted inner) members
    | some (.table .dotted inner) =>
      (insert? key value path inner).map fun inner => put step (.table .dotted inner) members
    | some (.table .implied inner) =>
      if path = [] then none
      else (insert? key value path inner).map fun inner => put step (.table .implied inner) members
    | some (.tables (inner :: others)) =>
      if path = [] then none
      else (insert? key value path inner).map fun inner => put step (.tables (inner :: others)) members
    | some _ => none

end Toml
end Playout
