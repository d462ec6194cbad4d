import Playout.Scenario.Step

/-!
# Snapshots

What is seen of a server after each step, and how a scenario is played: each
step is followed by a millisecond for what goes on behind it.
-/
namespace Playout.Scenario

/-- What is seen of a run. -/
structure RunView where
  rendering : String
  first : Nat
  last : Nat
  life : Option (Playout.Stage × Bool)
  isPaused : Bool
  terminations : Nat
  hasDirectory : Bool
  deriving DecidableEq

/-- What is seen of a server. -/
structure Snapshot where
  runs : List RunView
  directories : Nat
  references : List (String × Nat)
  sessions : Nat
  reports : Nat
  renderings : Nat
  inspections : Nat
  scans : Nat
  deriving DecidableEq

namespace Scene

def visibleRuns (s : Scene) : List Nat :=
  (s.leases.filterMap fun l => l.2.run) ++
    s.keys.filterMap fun key => do (← s.playback.entries[← s.playback.find? key]?).run

def look (s : Scene) : Scene :=
  { s with shown := s.shown ++ s.visibleRuns.filter fun run => !s.shown.contains run }

def viewRun (s : Scene) (run : Nat) (r : Run) : RunView :=
  let process := s.playback.processOf? r
  { rendering :=
      toString r.job.rendering.stream.index ++ "/" ++ r.job.rendering.representation.id.text
    first := r.job.first
    last := r.job.last
    life := if s.shown.contains run then some (s.playback.stageOf r,r.isDestroyed) else none
    isPaused := (process.map (·.isPaused)).getD false
    terminations := (process.map (·.terminations)).getD 0
    hasDirectory := r.output.isSome }

def references (s : Scene) (key : Playback.Key) : Nat :=
  (((s.playback.find? key).bind (s.playback.entries[·]?)).map (·.references)).getD 0

def snapshot (s : Scene) : Snapshot :=
  let p := s.playback
  let c := s.server.catalogue
  { runs := p.launches.filterMap fun run => (p.runs[run]?).map (s.viewRun run)
    directories := p.runs.countP fun r => r.output.isSome
    references := s.keys.map fun key => (key.text,s.references key)
    sessions := p.table.length
    reports := c.reports.length
    renderings := c.renderings.entries.length
    inspections := c.inspections
    scans := c.scans }

/-- The answers of some steps, each with what is seen after it unless nothing has changed since the last time. -/
def play (s : Scene) (last : Option Snapshot) : List Step → List (Answer × Option Snapshot)
  | [] => []
  | step :: rest =>
    let (s,answer) := s.perform step
    let s := s.settle.look
    let seen := s.snapshot
    (answer,if last = some seen then none else some seen) :: s.play (some seen) rest

/-- The scene of a server with a configuration, before anything was asked for. -/
def ofLibrary (config : Config) (library : Catalogue.Library) (script : Encoder.Script)
    (rootIsBlocked : Bool) : Scene where
  config := config
  server :=
    { catalogue :=
        { library
          renderings := .empty config.cache.maxEntries config.cache.ttlSeconds }
      playback := { script, rootIsBlocked } }

end Scene
end Playout.Scenario
