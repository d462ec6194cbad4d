import Playout.Scenario.Call

/-!
# The scene of a scenario

A server with clocks that go on by themselves only when everything waits: the
call that a step makes, the calls that go on behind it and the tasks of the
session table take turns, and when none of them can go on, the clock is moved to
the next time that one of them waits for.
-/
namespace Playout.Scenario
open Playback (Lease)

/-- A call that goes on behind the steps, or what it has come to. -/
inductive Behind where
  | going (call : Call)
  | done (outcome : Outcome)

/-- A server with what a scenario has to do with it. -/
structure Scene where
  config : Config
  server : Server
  clock : Clock := ⟨0,0⟩
  behind : List (String × Behind) := []
  leases : List (String × Lease) := []
  shown : List Nat := []
  keys : List Playback.Key := []

namespace Scene

def withPlayback (s : Scene) (playback : Playback.State) : Scene :=
  { s with server := { s.server with playback } }

def withCatalogue (s : Scene) (catalogue : Catalogue.State) : Scene :=
  { s with server := { s.server with catalogue } }

def playback (s : Scene) : Playback.State := s.server.playback

/-- The scene after a turn, whose time has passed. -/
def tick (s : Scene) : Scene := { s with clock := { s.clock with nanos := s.clock.nanos + 1 } }

def earlier : Option Nat → Option Nat → Option Nat
  | some a, some b => some (min a b)
  | some a, none => some a
  | none, b => b

/-- What a round of turns has come to: the scene, whether anything went on, and the next time that something waits for.
    -/
structure Round where
  scene : Scene
  moved : Bool
  wake : Option Nat

def turnBehind (round : Round) (number : Nat) : Round :=
  match round.scene.behind[number]? with
  | some (name,.going call) =>
    let s := round.scene
    match call.turn s.config s.clock s.server with
    | .blocked wake => { round with wake := earlier round.wake wake }
    | .goesOn server next =>
      { round with
        scene := tick { s with server, behind := s.behind.set number (name,.going next) }
        moved := true }
    | .ends server outcome =>
      { round with
        scene := tick { s with server, behind := s.behind.set number (name,.done outcome) }
        moved := true }
  | _ => round

def turnTask (round : Round) (number : Nat) : Round :=
  let s := round.scene
  match s.playback.tasks[number]? with
  | none => round
  | some task =>
    match task.turn s.clock s.playback with
    | .blocked wake => { round with wake := earlier round.wake wake }
    | .goesOn playback next =>
      { round with
        scene := tick (s.withPlayback { playback with tasks := playback.tasks.set number next })
        moved := true }
    | .ends playback destroyed =>
      { round with
        scene := tick
          (s.withPlayback { playback with tasks := playback.tasks.set number (.over destroyed) })
        moved := true }

def turnAll (round : Round) : Round :=
  let round := (List.range round.scene.behind.length).foldl turnBehind round
  (List.range round.scene.playback.tasks.length).foldl turnTask round

def moveClock (s : Scene) (millis : Nat) : Scene :=
  { s with clock := { s.clock with millis := max s.clock.millis millis } }

/-- The scene when a call has come to its end, with what it has come to; nothing if it has not in a number of rounds, or
    if it waits for something that never comes. -/
def drive (s : Scene) (call : Call) : Nat → Scene × Option Outcome
  | 0 => (s,none)
  | rounds + 1 =>
    let settle := fun (round : Round) (call : Call) =>
      if round.moved then round.scene.drive call rounds
      else
        match round.wake with
        | some wake => (round.scene.moveClock wake).drive call rounds
        | none => (round.scene,none)
    match call.turn s.config s.clock s.server with
    | .ends server outcome => (tick { s with server },some outcome)
    | .goesOn server next => settle (turnAll ⟨tick { s with server },true,none⟩) next
    | .blocked wake => settle (turnAll ⟨s,false,wake⟩) call

def enoughRounds : Nat := 1000000

/-- The scene when a call has come to its end, with what it has come to. -/
def await (s : Scene) (call : Call) : Scene × Outcome :=
  match s.drive call enoughRounds with
  | (s,some outcome) => (s,outcome)
  | (s,none) => (s,.answer (.failure (.internal "the call does not end")))

/-- The scene a millisecond later. -/
def settle (s : Scene) : Scene := (s.await (.sleep (s.clock.millis + 1))).1

end Scene
end Playout.Scenario
