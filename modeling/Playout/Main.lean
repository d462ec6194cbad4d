import Playout.CommandLine.Invocation

/-!
# The program

The host that the arguments are carried out on is put together from the files
that they name, and what comes out of it is printed.
-/
namespace Playout.CommandLine

/-- The host with the content of a file, if the file can be read. -/
def loadFile (h : Host) (path : String) : IO Host := do
  match ← (IO.FS.readBinFile path).toBaseIO with
  | .ok content =>
    let place := Host.Place.ofPath (Path.join h.directory.path path.toList)
    pure { h with files := h.files.withFile place content.toList true }
  | .error _ => pure h

def startingHost : IO Host := do
  let directory := Host.Place.ofPath (← IO.currentDir).toString.toList
  let searched := ((← IO.getEnv "PATH").getD "").toList
  let searchPath := ((Text.splitAll ':' searched).filter (· ≠ [])).map Host.Place.ofPath
  let home := ((← IO.getEnv "HOME").getD "").toList
  pure { files := Host.systemFiles.withDirectory directory, directory, searchPath, home }

def hostFor (arguments : List String) : IO Host := do
  let h ← startingHost
  match Invocation.ofArguments arguments with
  | .error _ => pure h
  | .ok i =>
    let h ← (i.files (String.ofList h.home)).foldlM loadFile h
    match loadConfig h i.config with
    | .error _ => pure h
    | .ok c => (toolFiles h c).foldlM loadFile h

end Playout.CommandLine

open Playout.CommandLine in
/-- Carries out the arguments, prints what there is to print and ends with a code. -/
def main (arguments : List String) : IO UInt32 := do
  let outcome := run (← hostFor arguments) arguments
  IO.print outcome.output
  match outcome.error with
  | some error => IO.eprintln ("Error: " ++ error)
  | none => pure ()
  pure outcome.code.toUInt32
