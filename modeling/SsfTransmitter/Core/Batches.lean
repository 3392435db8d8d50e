import Mathlib.Data.List.Nodup
import Mathlib.Data.List.Perm.Subperm

/-!
# Batches from the front of a queue

A worker that always takes the first items of an ordered queue gets through the items
that were there before the others: each full batch takes that many of them.
-/

namespace SsfTransmitter.Core

variable {Item : Type*} {precedes : Item → Item → Prop} {queue early : List Item}

/-- What is in the first batch precedes what is not. -/
theorem precedes_of_mem_take {size : ℕ} (hsorted : queue.Pairwise precedes) {first later : Item}
    (hfirst : first ∈ queue.take size) (hlater : later ∈ queue)
    (hnot : later ∉ queue.take size) : precedes first later := by
  have hsplit := hsorted
  rw [← List.take_append_drop size queue, List.pairwise_append] at hsplit
  rw [← List.take_append_drop size queue, List.mem_append] at hlater
  exact hsplit.2.2 first hfirst later (hlater.resolve_left hnot)

/-- A batch that leaves nothing of what it took leaves that many early items less. -/
theorem length_filter_le_of_take (size : ℕ) (hsorted : queue.Pairwise precedes)
    (hqueue : queue.Nodup) (hearly : early.Nodup) (hsubset : early ⊆ queue)
    (hbefore : ∀ item ∈ early, ∀ other ∈ queue, other ∉ early → ¬precedes other item)
    {remains : Item → Prop} [DecidablePred remains]
    (htaken : ∀ item ∈ queue.take size, ¬remains item) :
    (early.filter remains).length ≤ early.length - size := by
  classical
  by_cases hall : ∀ item ∈ queue.take size, item ∈ early
  · have hbatch : (queue.take size).Nodup := hqueue.sublist (List.take_sublist _ _)
    have hdisjoint : (early.filter remains).Disjoint (queue.take size) := by
      intro item hremains hitem
      exact htaken item hitem (of_decide_eq_true (List.mem_filter.mp hremains).2)
    have hparts : early.filter remains ++ queue.take size ⊆ early := by
      intro item hitem
      rcases List.mem_append.mp hitem with hremains | htake
      · exact List.mem_of_mem_filter hremains
      · exact hall item htake
    have htotal := (List.subperm_of_subset
      (List.Nodup.append (hearly.filter _) hbatch hdisjoint) hparts).length_le
    have hlength := (List.subperm_of_subset hearly hsubset).length_le
    rw [List.length_append, List.length_take] at htotal
    omega
  · -- an item that came later is in the batch, so every early one is too
    push Not at hall
    obtain ⟨other, hother, hlate⟩ := hall
    have hempty : early.filter remains = [] := by
      apply List.filter_eq_nil_iff.mpr
      intro item hitem hremains
      have htake : item ∈ queue.take size := by
        by_contra hnot
        exact hbefore item hitem other (List.mem_of_mem_take hother) hlate
          (precedes_of_mem_take hsorted hother (hsubset hitem) hnot)
      exact htaken item htake (of_decide_eq_true hremains)
    rw [hempty]
    exact Nat.zero_le _

end SsfTransmitter.Core
