import Playout.Encoder.Job
import Playout.Tool.Supervision

/-!
# Launching the encoder

The encoder runs in the output directory of its job. It reads nothing, what it
prints is dropped, and what it complains about goes to a log in that directory,
which is created first.
-/
namespace Playout.Encoder
open Playout.Host Playout.Shell

def logName : String := "encoder.log"

def Job.logPath (j : Job) : List Char := Path.join j.directory.toList logName.toList

def Job.launch (j : Job) (h : Host) (tool : String) : Result Tool.Supervised :=
  let opened := do
    let files ← h.files.write h.directory j.logPath false []
    let (log,_) ← files.find h.directory j.logPath
    let (directory,_) ← files.find h.directory j.directory.toList
    pure (({ h with files, directory } : Host),log)
  match opened with
  | .error why => .error (.directory j.directory why.message)
  | .ok (h,log) =>
    Tool.Supervised.start h tool tool.toList (j.arguments.map String.toList)
      { output := .nowhere, errors := .file log }

/-- What stands in the log of a job, once the encoder was started. -/
def Job.log (j : Job) (p : Tool.Supervised) : List Char :=
  match p.files.read [] j.logPath with
  | .ok content => Text.Utf8.decodeLossy content
  | .error _ => []

end Playout.Encoder
