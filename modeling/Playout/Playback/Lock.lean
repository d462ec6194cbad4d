/-!
# Locks

A lock that is handed on in the order in which it was asked for. Who asks gets a
ticket; the lock is held by the first ticket in the queue.
-/
namespace Playout.Playback

/-- A fair lock. -/
structure Lock where
  queue : List Nat
  next : Nat
  deriving DecidableEq, Repr, Inhabited

namespace Lock

def unused : Lock := ⟨[],0⟩

/-- The lock with one more ticket given out, the ticket `l.next`. -/
def request (l : Lock) : Lock := ⟨l.queue ++ [l.next],l.next + 1⟩

/-- The lock without a ticket, of its holder or of one that gives up waiting. -/
def leave (l : Lock) (ticket : Nat) : Lock := { l with queue := l.queue.erase ticket }

def isHeldBy (l : Lock) (ticket : Nat) : Bool := l.queue.head? == some ticket

def isFree (l : Lock) : Bool := l.queue.isEmpty

end Lock
end Playout.Playback
