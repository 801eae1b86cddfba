import Mathlib.Tactic.Common

/-!
# Ordered maps that keep the first value of a key

Entries are inserted into an ordered map one after the other, and a key that is already there keeps
its value. `getElem?_insertAll` says that a key has the value of its first entry. What is listed
from the map is ordered by the keys (`pairwise_filterMap_toList`).
-/

set_option autoImplicit false
set_option relaxedAutoImplicit false

namespace TradeServers.FirstWins

open Std

variable {κ α β : Type*} {cmp : κ → κ → Ordering}

/-- Insertion of entries whose keys may be there already. -/
def insertAll (map : TreeMap κ α cmp) (entries : List (κ × α)) : TreeMap κ α cmp :=
  entries.foldl (fun map entry ↦ map.insertIfNew entry.1 entry.2) map

@[simp] theorem insertAll_nil (map : TreeMap κ α cmp) : insertAll map [] = map := rfl

@[simp] theorem insertAll_cons (map : TreeMap κ α cmp) (entry : κ × α) (entries : List (κ × α)) :
    insertAll map (entry :: entries) = insertAll (map.insertIfNew entry.1 entry.2) entries := rfl

variable [TransCmp cmp]

/-- What is listed from a map is ordered when the order of the keys orders it. -/
theorem pairwise_filterMap_toList {map : TreeMap κ α cmp} {read : κ × α → Option β}
    {before : β → β → Prop}
    (hread : ∀ first ∈ map.toList, ∀ second ∈ map.toList, cmp first.1 second.1 = .lt →
      ∀ value ∈ read first, ∀ other ∈ read second, before value other) :
    (map.toList.filterMap read).Pairwise before := by
  rw [List.pairwise_filterMap]
  refine (List.Pairwise.and_mem.mp TreeMap.ordered_keys_toList).imp ?_
  rintro first second ⟨hfirst, hsecond, hlt⟩
  exact hread first hfirst second hsecond hlt

variable [LawfulEqCmp cmp] [BEq κ] [LawfulBEq κ]

/-- A key has the value of its first entry, unless it had a value before. -/
theorem getElem?_insertAll (map : TreeMap κ α cmp) (entries : List (κ × α)) (key : κ) :
    (insertAll map entries)[key]? = map[key]?.or (entries.lookup key) := by
  induction entries generalizing map with
  | nil => exact Option.or_none.symm
  | cons entry entries ih =>
    rw [insertAll_cons, ih, TreeMap.getElem?_insertIfNew]
    by_cases hsame : entry.1 = key
    · subst hsame
      rw [List.lookup_cons_self]
      cases hvalue : map[entry.1]? with
      | none =>
        have habsent : entry.1 ∉ map := by
          rw [TreeMap.mem_iff_isSome_getElem?, hvalue]
          exact Bool.false_ne_true
        rw [if_pos ⟨ReflCmp.compare_self, habsent⟩]
        rfl
      | some value =>
        have hpresent : entry.1 ∈ map := TreeMap.mem_iff_isSome_getElem?.mpr (by rw [hvalue]; rfl)
        rw [if_neg fun hnew ↦ hnew.2 hpresent]
        rfl
    · have hother : (key == entry.1) = false := beq_eq_false_iff_ne.mpr (Ne.symm hsame)
      rw [if_neg fun hnew ↦ hsame (LawfulEqCmp.eq_of_compare hnew.1)]
      rw [List.lookup_cons, hother]

end TradeServers.FirstWins
