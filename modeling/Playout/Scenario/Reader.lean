import Playout.Json.Member
import Playout.Probe.Report
import Playout.Scenario.Sample
import Playout.Scenario.SingleRun
import Playout.Scenario.Step

/-!
# Scenarios in JSON

The steps of scenarios, the scripts of encoder processes and the media files as
JSON objects. What a step leaves out has a usual value: the sample movie, its
first stream, a preset.
-/
namespace Playout.Scenario
open Playout.Json (bytes? whole? listAt? optionalAt?)

/-- How a process ends: with the code that a member gives, or by a signal. -/
def exitOfJson? (j : Json) (name : String) : Option Encoder.Exit := do
  some ⟨← optionalAt? whole? j name⟩

def scriptOfJson? (j : Json) : Option Encoder.Script :=
  let exit := match j.present? "exit" with
    | some _ => exitOfJson? j "exit"
    | none => none
  some ⟨(j.naturalAt? "produce").getD 0,exit,j.stringAt? "fail",j.isSet "signal_fail",
    (j.naturalAt? "terminate_ms").getD 0⟩

def requestOfJson (j : Json) : SegmentRequest :=
  match j.naturalAt? "seg" with
  | some n => .segment n
  | none => .header

def mediaOfJson? (j : Json) : Option Catalogue.MediaFile := do
  let report := match j.stringAt? "fail", j.present? "probe" with
    | some why, _ => .error why
    | none, none => .ok Sample.container
    | none, some report =>
      match Probe.Container.ofJson? report with
      | some c => .ok c
      | none => .error "the report cannot be read"
  let frames := (← optionalAt? (Json.list? whole?) j "keyframes").getD Sample.keyframes
  let keyframes := match j.stringAt? "fail_keyframes" with
    | some why => .error why
    | none => .ok frames
  some ⟨(j.naturalAt? "size").getD 4096,(j.wholeAt? "mtime").getD 1000000,report,keyframes⟩

def changeOfJson? (j : Json) : Option FileChange :=
  if j.isSet "remove" then some .remove
  else if j.isSet "dir" then some .makeDirectory
  else (mediaOfJson? j).map .write

def callOfJson? (j : Json) : Option HttpCall := do
  some ⟨(j.stringAt? "method").getD "GET",← j.stringAt? "uri",
    (← optionalAt? (Json.list? bytes?) j "chunks").getD []⟩

def stepOfJson? (j : Json) : Option Step := do
  let name := (j.stringAt? "lease").getD ""
  let file := (j.stringAt? "file").getD "movies/movie.mkv"
  let stream := (j.naturalAt? "stream").getD 0
  let representation := (j.stringAt? "rep").getD "720p/2000kbps"
  let run := (j.naturalAt? "run").getD 0
  let millis := (j.naturalAt? "ms").getD 0
  let timeout := (j.naturalAt? "timeout_ms").getD 0
  match ← j.stringAt? "do" with
  | "acquire" =>
    let player := (j.stringAt? "player").getD "p1"
    some (.acquire name ⟨file,stream,representation,player⟩ (requestOfJson j))
  | "bind" => some (.bind name)
  | "bind_bg" => some (.bindBehind name)
  | "join" => some (.join name)
  | "wait" => some (.wait name (requestOfJson j) timeout false)
  | "serve" => some (.wait name (requestOfJson j) timeout true)
  | "mark" => some (.mark name (requestOfJson j))
  | "available" => some (.available name)
  | "drop" => some (.drop name)
  | "progress" => some (.progress (j.naturalAt? "run") (← bytes? (j.member "text")))
  | "last_progress" => some (.lastProgress run)
  | "exit" => some (.exit run (← exitOfJson? j "code"))
  | "produce" => some (.produce run ((j.naturalAt? "from").getD 0) ((j.naturalAt? "count").getD 0))
  | "signal_fail" => some (.refuseSignals run (j.isSet "on"))
  | "rmdir" => some (.removeOutput run)
  | "behavior" => some (.script (← scriptOfJson? (j.member "behavior")))
  | "sleep" => some (.sleep millis)
  | "cleanup" => some .cleanUp
  | "cleanup_task" => some (.keepClean (← j.naturalAt? "interval_ms") millis)
  | "destroy_all" => some (.shutDown timeout)
  | "job" => some (.job run)
  | "file" => some (.change (← j.stringAt? "path") (← changeOfJson? j))
  | "probe" =>
    match j.stringAt? "path" with
    | some path => some (.probePath path)
    | none => some (.probe file)
  | "streams" => some (.streams file none)
  | "stream" => some (.streams file (some stream))
  | "keyframes" => some (.keyframes file stream)
  | "modified" => some (.modified file)
  | "invalidate" => some (.forget (← j.stringAt? "path"))
  | "rep" => some (.rendering file stream representation)
  | "reps" => some (.candidates file)
  | "cache" =>
    match ← j.stringAt? "action" with
    | "clear" => some .clearCache
    | "expire" => some .expireCache
    | "stream" => some (.dropCached file stream)
    | _ => none
  | "http" => some (.http (← callOfJson? j))
  | "http_bg" => some (.httpBehind (← j.stringAt? "name") (← callOfJson? j))
  | "http_join" => some (.httpJoin (← j.stringAt? "name"))
  | _ => none

open SingleRun in
def actionOfJson? (j : Json) : Option Action := do
  match ← j.stringAt? "do" with
  | "start" => some .start
  | "behavior" => some (.script (← scriptOfJson? (j.member "behavior")))
  | "throttle" => some .throttle
  | "resume" => some .resume
  | "touch" => some (.write (← j.stringAt? "name"))
  | "unlink" => some (.unlink (← j.stringAt? "name"))
  | "rmdir" => some .removeOutput
  | "available" => some .list
  | "exit" => some (.exit (← exitOfJson? j "code"))
  | "signal_fail" => some (.refuseSignals (j.isSet "on"))
  | "destroy" => some .destroy
  | "destroy_detached" => some .destroyDetached
  | "sleep" => some (.sleep (← j.naturalAt? "ms"))
  | "progress" => some (.progress (← bytes? (j.member "text")))
  | "covers" => some (.covers (← j.naturalAt? "seg"))
  | _ => none

end Playout.Scenario
