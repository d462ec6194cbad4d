import Playout.Playback.Start

/-!
# Shutting down

The table is emptied, each entry that was in it is retired by a task of its own,
and the tasks are waited for until a deadline. What is not torn down by then goes
on by itself.
-/
namespace Playout.Playback

/-- What a shutdown found. -/
structure Summary where
  destroyed : Nat
  leaked : Nat
  deriving DecidableEq, Repr, Inhabited

/-- Where a shutdown waits. -/
inductive Shutdown where
  | begin
  | clearing (entries : List Nat)
  | forgetting (entries : List Nat)
  | joining (tasks : List Nat) (deadline : Nat)

namespace Shutdown

/-- Whether a task has torn down a run; nothing if it is not over. -/
def outcome? (s : State) (task : Nat) : Option Bool :=
  match s.tasks[task]? with
  | some (.over destroyed) => some destroyed
  | _ => none

def summary (s : State) (tasks : List Nat) : Summary :=
  ⟨tasks.countP (outcome? s · == some true),tasks.countP (outcome? s · == none)⟩

def turn (clock : Clock) (timeout : Nat) (phase : Shutdown) (s : State) : Turn State Shutdown Summary :=
  match phase with
  | begin => .goesOn s (clearing (s.table.map (·.2)))
  | clearing entries => .goesOn { s with table := [] } (forgetting entries)
  | forgetting entries =>
    let tasks := List.range' s.tasks.length entries.length
    .goesOn
      { s with
        owners := []
        tasks := s.tasks ++ entries.map fun entry => .retirement entry .start }
      (joining tasks (clock.millis + timeout))
  | joining tasks deadline =>
    let summary := summary s tasks
    if summary.leaked = 0 ∨ deadline ≤ clock.millis then .ends s summary else .blocked (some deadline)

end Shutdown
end Playout.Playback
