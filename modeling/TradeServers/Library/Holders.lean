import Mathlib.Algebra.Order.BigOperators.Group.Finset
import Mathlib.Data.Fintype.Card
import TradeServers.Library.Simulation

/-!
# Resources that processes hold

Each of finitely many processes holds at most one resource. `held` is the multiset of the resources
that are held, so that a resource which two processes hold counts twice.

- `held_update_some`, `held_update_none`: what taking and giving back changes.
- `card_held_lt`: while one process holds nothing, fewer resources are held than there are
  processes.
- `eq_of_nodup`: without duplicates, two processes hold different resources.
-/

set_option autoImplicit false
set_option relaxedAutoImplicit false

namespace TradeServers.Holders

variable {κ ρ : Type*} [Fintype κ]

/-- What one process holds. -/
def heldBy (resource : Option ρ) : Multiset ρ := resource.elim 0 fun resource ↦ {resource}

/-- What all processes hold. -/
def held (holding : κ → Option ρ) : Multiset ρ := ∑ process, heldBy (holding process)

variable {holding : κ → Option ρ} {process other : κ} {resource : ρ}

theorem mem_held_iff : resource ∈ held holding ↔ ∃ process, holding process = some resource := by
  unfold held
  rw [Multiset.mem_sum]
  constructor
  · rintro ⟨process, -, hmem⟩
    refine ⟨process, ?_⟩
    cases hholds : holding process with
    | none => simp [heldBy, hholds] at hmem
    | some found =>
      rw [heldBy, hholds, Option.elim_some, Multiset.mem_singleton] at hmem
      rw [hmem]
  · rintro ⟨process, hholds⟩
    exact ⟨process, Finset.mem_univ process, by simp [heldBy, hholds]⟩

theorem held_eq_zero (hnone : ∀ process, holding process = none) : held holding = 0 :=
  Finset.sum_eq_zero fun process _ ↦ by rw [hnone process]; rfl

/-- The number of held resources is the number of processes that hold one. -/
theorem card_held (holding : κ → Option ρ) : (held holding).card =
    (Finset.univ.filter fun process ↦ (holding process).isSome).card := by
  unfold held
  rw [Multiset.card_sum, Finset.card_filter]
  refine Finset.sum_congr rfl fun process _ ↦ ?_
  cases holding process <;> simp [heldBy]

/-- While a process holds nothing, fewer resources are held than there are processes. -/
theorem card_held_lt (hfree : holding process = none) :
    (held holding).card < Fintype.card κ := by
  rw [card_held]
  have hstrict : (Finset.univ.filter fun other ↦ (holding other).isSome) ⊂ Finset.univ := by
    refine Finset.filter_ssubset.mpr ⟨process, Finset.mem_univ process, ?_⟩
    simp [hfree]
  exact Finset.card_lt_card hstrict

variable [DecidableEq κ]

/-- A resource that a process takes is one more that is held. -/
theorem held_update_some (hfree : holding process = none) (resource : ρ) :
    held (Function.update holding process (some resource)) = resource ::ₘ held holding := by
  have hsum := Execution.sum_update_add heldBy holding process (some resource)
  rw [hfree] at hsum
  simpa [held, heldBy, add_comm] using hsum

/-- One that it gives back is held no longer. -/
theorem held_update_none (hholds : holding process = some resource) :
    resource ::ₘ held (Function.update holding process none) = held holding := by
  have hsum := Execution.sum_update_add heldBy holding process none
  rw [hholds] at hsum
  simpa [held, heldBy, add_comm] using hsum

/-- When nothing is held twice, only one process holds a resource. -/
theorem eq_of_nodup (hnodup : (held holding).Nodup) (hholds : holding process = some resource)
    (hother : holding other = some resource) : other = process := by
  by_contra hne
  rw [← held_update_none hholds, Multiset.nodup_cons] at hnodup
  refine hnodup.1 (mem_held_iff.mpr ⟨other, ?_⟩)
  rw [Function.update_of_ne hne, hother]

end TradeServers.Holders
