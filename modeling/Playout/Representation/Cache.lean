import Playout.Locator
import Playout.Representation.Resolve

/-!
# Cached renderings

Renderings are kept by stream and representation, since planning a copied video
needs a scan of the whole file. One that has not been used for a while, or that
was made of a file with another modification time, is not used any more; when the
cache is full, the one that was used least recently makes room.
-/
namespace Playout

abbrev RenderingKey := StreamKey × RepresentationId

/-- A kept rendering. -/
structure CachedRendering where
  key : RenderingKey
  rendering : Rendering
  /-- When it was last used, in nanoseconds. -/
  lastUse : Nat
  modified : Option Int

structure RenderingCache where
  capacity : Nat
  /-- How long an unused rendering is kept, in nanoseconds. -/
  lifetime : Nat
  entries : List CachedRendering
  deriving Inhabited

namespace RenderingCache

def nanosPerSecond : Nat := 1000000000

/-- An empty cache, which keeps at least one rendering. -/
def empty (maxEntries ttlSeconds : Nat) : RenderingCache :=
  ⟨max maxEntries 1,ttlSeconds * nanosPerSecond,[]⟩

def isExpired (c : RenderingCache) (now : Nat) (e : CachedRendering) : Bool :=
  c.lifetime ≤ now - e.lastUse

/-- Whether two modification times may be of one state of a file; an unknown one is of any. -/
def sameState : Option Int → Option Int → Bool
  | some a, some b => a == b
  | _, _ => true

def isValid (c : RenderingCache) (now : Nat) (modified : Option Int) (e : CachedRendering) : Bool :=
  !c.isExpired now e && sameState e.modified modified

def retain (c : RenderingCache) (keep : CachedRendering → Bool) : RenderingCache :=
  { c with entries := c.entries.filter keep }

/-- The rendering of a key, which is used by that; one that cannot be used any more is dropped. -/
def lookup (c : RenderingCache) (now : Nat) (modified : Option Int) (key : RenderingKey) :
    RenderingCache × Option Rendering :=
  match c.entries.find? (·.key == key) with
  | none => (c,none)
  | some e =>
    if c.isValid now modified e then
      ({ c with entries := c.entries.map fun e =>
          if e.key == key then { e with lastUse := now } else e },some e.rendering)
    else (c.retain (·.key != key),none)

/-- The entry that was used least recently. -/
def oldest? : List CachedRendering → Option CachedRendering
  | [] => none
  | e :: rest =>
    match oldest? rest with
    | some other => if other.lastUse < e.lastUse then some other else some e
    | none => some e

/-- The cache without the entry that was used least recently, if it is full. -/
def makeRoom (c : RenderingCache) : RenderingCache :=
  if c.capacity ≤ c.entries.length then
    match oldest? c.entries with
    | some e => c.retain (·.key != e.key)
    | none => c
  else c

def insert (c : RenderingCache) (now : Nat) (modified : Option Int) (key : RenderingKey)
    (rendering : Rendering) : RenderingCache :=
  let c := c.makeRoom.retain (·.key != key)
  { c with entries := c.entries ++ [⟨key,rendering,now,modified⟩] }

def dropStream (c : RenderingCache) (stream : StreamKey) : RenderingCache :=
  c.retain (·.key.1 != stream)

def clear (c : RenderingCache) : RenderingCache := { c with entries := [] }

def dropExpired (c : RenderingCache) (now : Nat) : RenderingCache :=
  c.retain fun e => !c.isExpired now e

end RenderingCache
end Playout
