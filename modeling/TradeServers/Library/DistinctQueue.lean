import Mathlib.Data.List.Nodup
import Mathlib.Data.List.Sublists

/-!
# Bounded queues of distinct items

A queue that accepts an item only while the same item is not waiting in it, and that gives up its
oldest item when it grows beyond its capacity. The queue carries what it has accepted and what has
left it, with the laws that connect the two, so that no operation can lose, duplicate or reorder
an item.
-/

set_option autoImplicit false
set_option relaxedAutoImplicit false

namespace TradeServers

variable {α : Type*} {capacity : ℕ}

/-- An item that left a queue, with the items that were waiting behind it. `taken` tells the items
that were taken from those that were given up. -/
structure Departure (α : Type*) where
  item : α
  behind : List α
  taken : Bool

/-- A queue with its history, oldest items first. Items leave in the order in which they were
accepted, each one when it is the oldest, and an item is given up only with `capacity` other items
behind it. -/
structure DistinctQueue (α : Type*) (capacity : ℕ) where
  accepted : List α
  departed : List (Departure α)
  waiting : List α
  conserved : departed.map Departure.item ++ waiting = accepted
  nodup : waiting.Nodup
  bounded : waiting.length ≤ capacity
  oldest : ∀ earlier departure later, departed = earlier ++ departure :: later →
    earlier.map Departure.item ++ departure.item :: departure.behind <+: accepted
  distinct : ∀ departure ∈ departed, (departure.item :: departure.behind).Nodup
  full : ∀ departure ∈ departed, departure.taken = false → departure.behind.length = capacity

namespace DistinctQueue

/-- The queue that has not accepted anything. -/
def empty (α : Type*) (capacity : ℕ) : DistinctQueue α capacity where
  accepted := []
  departed := []
  waiting := []
  conserved := rfl
  nodup := List.nodup_nil
  bounded := Nat.zero_le _
  oldest := fun earlier departure later hsplit ↦ by simp at hsplit
  distinct := List.forall_mem_nil _
  full := List.forall_mem_nil _

variable (queue : DistinctQueue α capacity)

theorem departed_prefix : queue.departed.map Departure.item <+: queue.accepted :=
  ⟨queue.waiting, queue.conserved⟩

/-- When the oldest of the given items leaves, it follows the departures before it. -/
theorem oldest_concat {front : α} {rest : List α} (taken : Bool)
    (hwaiting : queue.waiting <+: front :: rest) :
    ∀ earlier departure later,
      queue.departed ++ [⟨front, rest, taken⟩] = earlier ++ departure :: later →
      earlier.map Departure.item ++ departure.item :: departure.behind <+:
        queue.departed.map Departure.item ++ front :: rest := by
  intro earlier departure later hsplit
  rcases List.eq_nil_or_concat later with rfl | ⟨later, last, rfl⟩
  · -- the departure is the one that was just added
    obtain ⟨rfl, hlast⟩ := List.append_inj' hsplit rfl
    obtain rfl := List.singleton_inj.mp hlast
    exact List.prefix_rfl
  · rw [List.concat_eq_append, ← List.cons_append, ← List.append_assoc] at hsplit
    refine (queue.oldest earlier departure later (List.append_inj' hsplit rfl).1).trans ?_
    rw [← queue.conserved]
    exact (List.prefix_append_right_inj _).mpr hwaiting

/-- The oldest of the given items leaves; they are the waiting items and possibly one that is just
accepted. -/
def depart (front : α) (rest : List α) (taken : Bool) (hwaiting : queue.waiting <+: front :: rest)
    (hnodup : (front :: rest).Nodup) (hbounded : rest.length ≤ capacity)
    (hfull : taken = false → rest.length = capacity) : DistinctQueue α capacity where
  accepted := queue.departed.map Departure.item ++ front :: rest
  departed := queue.departed ++ [⟨front, rest, taken⟩]
  waiting := rest
  conserved := by simp
  nodup := hnodup.of_cons
  bounded := hbounded
  oldest := queue.oldest_concat taken hwaiting
  distinct := List.forall_mem_append.mpr ⟨queue.distinct, List.forall_mem_singleton.mpr hnodup⟩
  full := List.forall_mem_append.mpr ⟨queue.full, List.forall_mem_singleton.mpr hfull⟩

theorem nodup_concat {item : α} (habsent : item ∉ queue.waiting) :
    (queue.waiting ++ [item]).Nodup := by
  rw [← List.concat_eq_append]
  exact queue.nodup.concat habsent

/-- An item that is not waiting finds room. -/
def push (item : α) (habsent : item ∉ queue.waiting) (hroom : queue.waiting.length < capacity) :
    DistinctQueue α capacity where
  accepted := queue.accepted ++ [item]
  departed := queue.departed
  waiting := queue.waiting ++ [item]
  conserved := by rw [← queue.conserved, List.append_assoc]
  nodup := queue.nodup_concat habsent
  bounded := by
    rw [List.length_append]
    exact hroom
  oldest := fun earlier departure later hsplit ↦
    (queue.oldest earlier departure later hsplit).trans (List.prefix_append _ _)
  distinct := queue.distinct
  full := queue.full

/-- An item that is not waiting finds no room, and the oldest item is given up for it. -/
def replaceOldest (item : α) (habsent : item ∉ queue.waiting)
    (hfull : ¬ queue.waiting.length < capacity) {front : α} {rest : List α}
    (hitems : queue.waiting ++ [item] = front :: rest) : DistinctQueue α capacity :=
  have hlength : rest.length = capacity := by
    have hall := congrArg List.length hitems
    rw [List.length_append, List.length_singleton, List.length_cons] at hall
    have hbounded := queue.bounded
    omega
  queue.depart front rest false (hitems ▸ List.prefix_append _ _)
    (hitems ▸ queue.nodup_concat habsent) hlength.le fun _ ↦ hlength

/-- The oldest item is taken. -/
def take {front : α} {rest : List α} (hwaiting : queue.waiting = front :: rest) :
    DistinctQueue α capacity :=
  have hlength : rest.length < queue.waiting.length := by
    rw [hwaiting]
    exact Nat.lt_succ_self _
  queue.depart front rest true (hwaiting ▸ List.prefix_rfl) (hwaiting ▸ queue.nodup)
    (hlength.le.trans queue.bounded) fun hgiven ↦ by cases hgiven

/-! ### The items that were taken -/

/-- The items that were taken, in the order in which they were. -/
def taken : List α := (queue.departed.filter Departure.taken).map Departure.item

theorem taken_sublist : queue.taken.Sublist queue.accepted :=
  (List.filter_sublist.map _).trans queue.departed_prefix.sublist

end DistinctQueue

end TradeServers
