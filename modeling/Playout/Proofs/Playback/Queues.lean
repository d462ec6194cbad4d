import Mathlib.Data.Multiset.MapFold
import Playout.Proofs.Playback.Grip

/-!
The queues of the locks. Every ticket in a queue belongs to one call, a call that
has passed the lock of an entry is at the head of its queue, and so no two calls
are ever inside one entry.
-/
namespace Playout.Playback

/-- The tickets in the queue of a lock; a lock that there is not has none. -/
def ticketsAt (locks : List Lock) (entry : Nat) : List Nat := (locks[entry]?.map (·.queue)).getD []

theorem ticketsAt_append_unused (locks : List Lock) (entry : Nat) :
    ticketsAt (locks ++ [.unused]) entry = ticketsAt locks entry := by
  unfold ticketsAt
  rw [List.getElem?_append]
  split
  · rfl
  · rename_i outside
    rw [List.getElem?_eq_none (Nat.le_of_not_lt outside),List.getElem?_singleton]
    split <;> rfl

theorem ticketsAt_request {locks : List Lock} {entry : Nat} {lock : Lock} (found : locks[entry]? = some lock)
    (other : Nat) :
    ticketsAt (locks.modify entry Lock.request) other =
      if entry = other then ticketsAt locks other ++ [lock.next] else ticketsAt locks other := by
  simp only [ticketsAt,List.getElem?_modify]
  split
  · rename_i same
    subst same
    rw [found]
    rfl
  · simp

theorem ticketsAt_leave (locks : List Lock) (entry ticket other : Nat) :
    ticketsAt (locks.modify entry (·.leave ticket)) other =
      if entry = other then (ticketsAt locks other).erase ticket else ticketsAt locks other := by
  simp only [ticketsAt,List.getElem?_modify]
  cases locks[other]? with
  | none => split <;> rfl
  | some lock => split <;> rfl

/-- The locks and what the calls hold of them fit together. -/
structure Queued (locks : List Lock) (holds : Multiset Hold) : Prop where
  /-- Every ticket in a queue belongs to one call, and every call's ticket is in a queue. -/
  counted : ∀ entry ticket,
    (holds.map Hold.ticket?).count (some (entry,ticket)) = (ticketsAt locks entry).count ticket
  nodup : ∀ entry, (ticketsAt locks entry).Nodup
  /-- A ticket that a lock gives out next is not in its queue. -/
  issued : ∀ (entry : Nat) (lock : Lock), locks[entry]? = some lock → ∀ ticket ∈ lock.queue, ticket < lock.next
  /-- A call that has passed a lock is at the head of its queue. -/
  heads : ∀ h ∈ holds, ∀ entry ticket, h.entered? = some (entry,ticket) →
    (ticketsAt locks entry).head? = some ticket

namespace Queued

variable {locks : List Lock} {h h' : Hold} {holds : Multiset Hold} {entry ticket : Nat}

theorem empty : Queued [] 0 where
  counted _ _ := rfl
  nodup _ := List.nodup_nil
  issued _ _ found := by simp at found
  heads _ member := by simp at member

/-- Two calls have different tickets. -/
theorem apart (queued : Queued locks (h ::ₘ holds)) (has : h.ticket? = some (entry,ticket)) (member : h' ∈ holds) :
    h'.ticket? ≠ some (entry,ticket) := by
  intro has'
  have once : (ticketsAt locks entry).count ticket ≤ 1 := List.nodup_iff_count_le_one.mp (queued.nodup entry) ticket
  rw [← queued.counted,Multiset.map_cons,has,Multiset.count_cons_self] at once
  have again : 0 < (holds.map Hold.ticket?).count (some (entry,ticket)) := by
    rw [Multiset.count_pos,← has']
    exact Multiset.mem_map_of_mem _ member
  omega

/-- No two calls have passed the lock of one entry. -/
theorem alone (queued : Queued locks (h ::ₘ holds)) (inside : h.entered? = some (entry,ticket))
    (member : h' ∈ holds) {ticket' : Nat} : h'.entered? ≠ some (entry,ticket') := by
  intro inside'
  have head := queued.heads h (Multiset.mem_cons_self h holds) entry ticket inside
  have head' := queued.heads h' (Multiset.mem_cons_of_mem member) entry ticket' inside'
  have same : ticket' = ticket := Option.some.inj (head'.symm.trans head)
  subst same
  exact queued.apart (Hold.ticket?_of_entered? inside) member (Hold.ticket?_of_entered? inside')

/-- Nobody has passed a lock that is free. -/
theorem nobody (queued : Queued locks holds) {lock : Lock} (found : locks[entry]? = some lock)
    (free : lock.isFree = true) (member : h ∈ holds) : h.entered? ≠ some (entry,ticket) := by
  intro inside
  have head := queued.heads h member entry ticket inside
  have empty : lock.queue = [] := List.isEmpty_iff.mp free
  simp [ticketsAt,found,empty] at head

/-! ### What the moves of a call do to the queues -/

theorem grow (queued : Queued locks holds) : Queued (locks ++ [.unused]) holds where
  counted entry ticket := by
    rw [ticketsAt_append_unused]
    exact queued.counted entry ticket
  nodup entry := by
    rw [ticketsAt_append_unused]
    exact queued.nodup entry
  issued entry lock found ticket member := by
    rw [List.getElem?_append] at found
    split at found
    · exact queued.issued entry lock found ticket member
    · rw [List.getElem?_singleton] at found
      split at found
      · cases found
        cases member
      · cases found
  heads h member entry ticket inside := by
    rw [ticketsAt_append_unused]
    exact queued.heads h member entry ticket inside

/-- A call that stays with its ticket, and is not at a new entry. -/
theorem stay (queued : Queued locks (h ::ₘ holds)) (ticket : h'.ticket? = h.ticket?)
    (entered : ∀ entry ticket, h'.entered? = some (entry,ticket) → (ticketsAt locks entry).head? = some ticket) :
    Queued locks (h' ::ₘ holds) where
  counted entry t := by
    rw [← queued.counted,Multiset.map_cons,Multiset.map_cons,ticket]
  nodup := queued.nodup
  issued := queued.issued
  heads k member := by
    rcases Multiset.mem_cons.mp member with rfl | old
    · exact entered
    · exact queued.heads k (Multiset.mem_cons_of_mem old)

/-- A call that asks for a lock comes to the end of its queue. -/
theorem ask (queued : Queued locks (h ::ₘ holds)) (idle : h.ticket? = none) {lock : Lock}
    (found : locks[entry]? = some lock) :
    Queued (locks.modify entry Lock.request) (.waits entry lock.next ::ₘ holds) where
  counted other ticket := by
    have before := queued.counted other ticket
    rw [Multiset.map_cons,idle,Multiset.count_cons_of_ne (by simp)] at before
    rw [ticketsAt_request found,Multiset.map_cons,Multiset.count_cons,before]
    by_cases same : entry = other
    · subst same
      rw [if_pos rfl,List.count_append,List.count_singleton]
      by_cases new : lock.next = ticket
      · simp [Hold.ticket?,new]
      · simp [Hold.ticket?,new,Ne.symm new]
    · simp [Hold.ticket?,same,Ne.symm same]
  nodup other := by
    rw [ticketsAt_request found]
    split
    · rename_i same
      subst same
      have new : lock.next ∉ ticketsAt locks entry := by
        intro member
        rw [ticketsAt,found] at member
        exact Nat.lt_irrefl _ (queued.issued entry lock found _ member)
      exact (queued.nodup entry).append (List.nodup_singleton _) (List.disjoint_singleton.mpr new)
    · exact queued.nodup other
  issued other lock' found' ticket member := by
    rw [List.getElem?_modify] at found'
    obtain ⟨old,foundOld,rfl⟩ := Option.map_eq_some_iff.mp found'
    by_cases same : entry = other
    · subst same
      rw [if_pos rfl] at member ⊢
      rcases List.mem_append.mp member with before | new
      · exact Nat.lt_succ_of_lt (queued.issued entry old foundOld ticket before)
      · rw [List.mem_singleton.mp new]
        exact Nat.lt_succ_self old.next
    · rw [if_neg same] at member ⊢
      exact queued.issued other old foundOld ticket member
  heads k member other ticket inside := by
    rcases Multiset.mem_cons.mp member with rfl | old
    · cases inside
    · have head := queued.heads k (Multiset.mem_cons_of_mem old) other ticket inside
      rw [ticketsAt_request found]
      split
      · rw [List.head?_append,head]
        rfl
      · exact head

/-- A call that gives its ticket back leaves the head of the queue to the others. -/
theorem leave (queued : Queued locks (h ::ₘ holds)) (has : h.ticket? = some (entry,ticket))
    (free : h'.ticket? = none) (out : h'.entered? = none) :
    Queued (locks.modify entry (·.leave ticket)) (h' ::ₘ holds) where
  counted other t := by
    have before := queued.counted other t
    rw [Multiset.map_cons,has,Multiset.count_cons] at before
    rw [ticketsAt_leave,Multiset.map_cons,free,Multiset.count_cons_of_ne (by simp)]
    by_cases same : entry = other
    · subst same
      rw [if_pos rfl,List.count_erase,← before]
      by_cases at_ticket : t = ticket <;> simp [at_ticket]
      simp [Ne.symm at_ticket]
    · rw [if_neg same,← before]
      simp [Ne.symm same]
  nodup other := by
    rw [ticketsAt_leave]
    split
    · exact (queued.nodup other).erase ticket
    · exact queued.nodup other
  issued other lock found t member := by
    rw [List.getElem?_modify] at found
    obtain ⟨old,foundOld,rfl⟩ := Option.map_eq_some_iff.mp found
    by_cases same : entry = other
    · rw [if_pos same] at member ⊢
      exact queued.issued other old foundOld t (List.mem_of_mem_erase member)
    · rw [if_neg same] at member ⊢
      exact queued.issued other old foundOld t member
  heads k member other t inside := by
    rcases Multiset.mem_cons.mp member with rfl | old
    · rw [out] at inside
      cases inside
    · have head := queued.heads k (Multiset.mem_cons_of_mem old) other t inside
      rw [ticketsAt_leave]
      split
      · rename_i same
        subst same
        have differs : t ≠ ticket := by
          rintro rfl
          exact queued.apart has old (Hold.ticket?_of_entered? inside)
        obtain ⟨rest,queue⟩ := List.head?_eq_some_iff.mp head
        rw [queue,List.erase_cons_tail (by simpa using differs)]
        rfl
      · exact head

end Queued
end Playout.Playback
