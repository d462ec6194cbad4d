import Playout.Tool.Run

/-!
# Finding tools

A tool is taken from where the configuration says it is, if something is there,
and otherwise from the search path. A tool is available if it can say its
version.
-/
namespace Playout.Tool
open Playout.Host Playout.Shell

/-- What is known about a tool. -/
structure Info where
  name : String
  isAvailable : Bool
  version : Option String
  path : Option String
  deriving Inhabited

def versionArgument : String := "-version"

def check (h : Host) (program : List Char) : Info :=
  let name := String.ofList program
  match Group.start h program [versionArgument.toList] {} with
  | .error _ => ⟨name,false,none,none⟩
  | .ok g =>
    let g := g.follow Group.isOver
    if g.ending = some (.code 0) then
      let version := (Text.lines (Text.Utf8.decodeLossy g.around.output)).head?
      ⟨name,true,version.map String.ofList,(h.which? program).map String.ofList⟩
    else ⟨name,false,none,none⟩

def locate (h : Host) (name : String) (configured : Option String) : Result String :=
  match configured.filter fun path => h.files.isThere h.directory path.toList with
  | some path => .ok path
  | none =>
    match h.which? name.toList with
    | some path => .ok (String.ofList path)
    | none => .error (.tool name "not found in PATH")

/-- The tools of the server. -/
structure Toolchain where
  encoder : String
  inspector : String
  deriving DecidableEq, Repr, Inhabited

namespace Toolchain

def encoderName : String := "ffmpeg"

def inspectorName : String := "ffprobe"

def byName : Toolchain := ⟨encoderName,inspectorName⟩

/-- Finds both tools. -/
def locate (h : Host) (encoder inspector : Option String) : Result Toolchain := do
  pure ⟨← Tool.locate h encoderName encoder,← Tool.locate h inspectorName inspector⟩

/-- What is known about both tools. -/
def check (h : Host) (t : Toolchain) : List Info :=
  [Tool.check h t.encoder.toList,Tool.check h t.inspector.toList]

end Toolchain
end Playout.Tool
