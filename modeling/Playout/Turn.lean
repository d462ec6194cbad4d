/-!
# Turns

What is served concurrently is served in turns: each call of the engine is a
machine whose phases are the points where it waits, and a turn is the work
between two of them. Nothing else happens during a turn, and anything may happen
between two turns.
-/
namespace Playout

/-- What a turn of a machine leads to, on states `σ` with phases `φ` and results `ρ`. -/
inductive Turn (σ φ ρ : Type) where
  | blocked (wake : Option Nat)
  | goesOn (state : σ) (next : φ)
  | ends (state : σ) (result : ρ)

namespace Turn

variable {σ τ φ ψ ρ π : Type}

/-- A turn of a machine that is part of another one, which goes on when its part is done. -/
def within (turn : Turn σ φ ρ) (phase : φ → ψ) (next : σ → ρ → Turn σ ψ π) : Turn σ ψ π :=
  match turn with
  | blocked wake => blocked wake
  | goesOn state p => goesOn state (phase p)
  | ends state result => next state result

def lift (turn : Turn σ φ ρ) (put : σ → τ) : Turn τ φ ρ :=
  match turn with
  | blocked wake => blocked wake
  | goesOn state p => goesOn (put state) p
  | ends state result => ends (put state) result

/-- A turn whose last result is an error or a value, where an error ends the whole. -/
def orFail {ε : Type} (turn : Turn σ φ (Except ε ρ)) (phase : φ → ψ)
    (next : σ → ρ → Turn σ ψ (Except ε π)) : Turn σ ψ (Except ε π) :=
  turn.within phase fun state result =>
    match result with
    | .ok value => next state value
    | .error e => ends state (.error e)

end Turn

/-- The two clocks: one that waiting goes by, and one that idle times go by. -/
structure Clock where
  millis : Nat
  nanos : Nat
  deriving DecidableEq, Repr, Inhabited

end Playout
