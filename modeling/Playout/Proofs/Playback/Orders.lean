import Playout.Proofs.Playback.History

/-!
What runs are made for. The job of every run is the one that was ordered for a
demand of its session, a demand that a player could make.
-/
namespace Playout.Playback

theorem Acquire.index_eq {demand : Demand} {index : Nat} (request : demand.request = .segment index) :
    Acquire.index demand = index := by
  rw [Acquire.index,request]

/-- No job goes past the last segment. -/
theorem Order.last_le (o : Order) (policy : Policy) : o.last policy ≤ o.rendering.segmentCount := by
  unfold Order.last
  dsimp only
  split
  · exact Nat.min_le_right _ _
  · exact Nat.le_refl _

/-- Where the job of an order ends whose first segment there is. -/
theorem Order.last_eq {o : Order} {policy : Policy} (counted : o.rendering.segmentCount ≤ max32) :
    o.last policy = if o.rendering.representation.isCopy then min (o.first + policy.maxCopySegments) o.rendering.segmentCount
      else o.rendering.segmentCount := by
  unfold Order.last
  dsimp only
  split
  · omega
  · rfl

/-- An order for a segment that there is is for one segment at least. -/
theorem Order.first_lt_last {o : Order} {policy : Policy} (copies : 1 ≤ policy.maxCopySegments)
    (inside : o.first < o.rendering.segmentCount) (counted : o.rendering.segmentCount ≤ max32) :
    o.first < o.last policy := by
  rw [o.last_eq counted]
  split <;> omega

/-- Every run has the job that was ordered for a demand, and calls want only what players ask for. -/
structure Ordered (policy : Policy) (conduct : Conduct) (jobs : List Encoder.Job) (makers : List Key)
    (grips : Multiset Grip) : Prop where
  asked : ∀ g ∈ grips, ∀ d, g.demand = some d → conduct.asks d
  ordered : ∀ run job, jobs[run]? = some job → ∃ demand entry first, conduct.asks demand ∧
    makers[run]? = some demand.key ∧ job = (Acquire.order demand entry first).job policy run

namespace Traffic

variable {policy : Policy} {conduct : Conduct} {w w' : Traffic}

/-- Every run has the job that was ordered for a demand of its session. -/
def IsOrdered (policy : Policy) (conduct : Conduct) (w : Traffic) : Prop :=
  Ordered policy conduct w.state.skeleton.jobs w.makers w.grips

theorem ordered_step (sound : w.IsSound) (orders : w.IsOrdered policy conduct) (step : Step policy conduct w w') :
    w'.IsOrdered policy conduct := by
  unfold IsOrdered at orders ⊢
  cases step.change sound.listed.working with
  | keeps skeleton makers grips =>
    rw [skeleton,makers,grips]
    exact orders
  | joins skeleton makers grips idle visits wants given =>
    rw [skeleton,makers,grips]
    exact { orders with
      asked := Multiset.forall_mem_cons.mpr ⟨fun d wanted => (wants d wanted).1,orders.asked⟩ }
  | parts skeleton makers grips idle =>
    rw [skeleton,makers]
    exact { orders with
      asked := fun g member => orders.asked g (by rw [grips]; exact Multiset.mem_cons_of_mem member) }
  | @moves g h g' rest news before move covers after makers =>
    have asked : ∀ k ∈ g' ::ₘ rest, ∀ d, k.demand = some d → conduct.asks d := by
      have old := orders.asked
      rw [before] at old
      refine Multiset.forall_mem_cons.mpr ⟨?_,fun k member => old k (Multiset.mem_cons_of_mem member)⟩
      intro d wants
      rcases covers.demand with same | gone
      · exact old g (Multiset.mem_cons_self _ _) d (move.demand.symm.trans (same.symm.trans wants))
      · rw [gone] at wants
        cases wants
    constructor
    · intro k member
      rcases after with on | ⟨_,done⟩
      · exact asked k (on ▸ member)
      · exact asked k (Multiset.mem_cons_of_mem (done ▸ member))
    · rw [makers]
      rcases move.jobs with ⟨none,same⟩ | ⟨demand,entry,first,wants,one,more⟩
      · rw [none,same,List.append_nil]
        exact orders.ordered
      · rw [one,more]
        have counted : w.makers.length = w.state.skeleton.jobs.length := by
          simpa [State.skeleton] using sound.listed.made
        intro run job found
        rw [List.getElem?_append] at found
        split at found
        · rename_i old
          obtain ⟨d,e,f,asks,made,is_job⟩ := orders.ordered run job found
          exact ⟨d,e,f,asks,by rw [List.getElem?_append_left (counted ▸ old)]; exact made,is_job⟩
        · rename_i new
          rw [List.getElem?_singleton] at found
          split at found
          · rename_i last
            cases found
            have runs : w.state.runs.length = run := by
              have : w.state.skeleton.jobs.length = w.state.runs.length := by simp [State.skeleton]
              omega
            refine ⟨demand,entry,first,?_,?_,by rw [runs]⟩
            · exact orders.asked g (by rw [before]; exact Multiset.mem_cons_self _ _) demand wants
            · rw [List.getElem?_append_right (by omega),counted,last]
              rfl
          · cases found

/-- In every history, every run has the job that was ordered for a demand of its session. -/
theorem ordered_of_reachable (reached : w.Reachable policy conduct) : w.IsOrdered policy conduct := by
  induction reached with
  | refl =>
    constructor
    · intro g member
      simp [grips] at member
    · intro run job found
      simp [State.skeleton] at found
  | tail before step ih => exact ordered_step (sound_of_reachable before) ih step

end Traffic
end Playout.Playback
