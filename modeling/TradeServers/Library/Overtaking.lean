import Mathlib.Data.List.Basic
import Mathlib.Data.List.Infix
import Mathlib.Data.List.Perm.Subperm

/-!
# Bounded overtaking

What several workers pass on can come out in another order than it went in. The order is bounded if
the first `count` elements that come out are always among the first `count + bound` that went in: no
element overtakes more than `bound` others.

- `within_concat_iff`: one more element comes out.
- `Within.filter`: the bound holds for the elements of every kind among themselves.
-/

set_option autoImplicit false
set_option relaxedAutoImplicit false

namespace TradeServers.Overtaking

variable {α β : Type*}

/-- The first elements of `passed` are among the first of `entered`, where each has overtaken at
most `bound` others. -/
def Within (bound : ℕ) (entered passed : List α) : Prop :=
  ∀ count ≤ passed.length, (passed.take count).Subperm (entered.take (count + bound))

variable {bound : ℕ} {entered passed : List α}

@[simp] theorem within_nil : Within bound entered [] := by
  intro count _
  simp

theorem Within.subperm (hwithin : Within bound entered passed) : passed.Subperm entered := by
  have hall := hwithin passed.length le_rfl
  rw [List.take_length] at hall
  exact hall.trans (List.take_sublist _ _).subperm

/-- What comes out first is within the bound as well. -/
theorem Within.initial {first : List α} (hwithin : Within bound entered passed)
    (hfirst : first <+: passed) : Within bound entered first := by
  intro count hcount
  have htake : passed.take count = first.take count := by
    obtain ⟨rest, rfl⟩ := hfirst
    exact List.take_append_of_le_length hcount
  simpa only [htake] using hwithin count (hcount.trans hfirst.length_le)

/-- What enters later changes nothing. -/
theorem Within.append (hwithin : Within bound entered passed) (later : List α) :
    Within bound (entered ++ later) passed := by
  intro count hcount
  have hprefix : entered.take (count + bound) <+: (entered ++ later).take (count + bound) :=
    (List.prefix_append entered later).take _
  exact (hwithin count hcount).trans hprefix.sublist.subperm

/-- One more element comes out within the bound, if it was among those that had entered by then. -/
theorem within_concat_iff {element : α} : Within bound entered (passed ++ [element]) ↔
    Within bound entered passed ∧
      (passed ++ [element]).Subperm (entered.take (passed.length + 1 + bound)) := by
  constructor
  · intro hwithin
    refine ⟨hwithin.initial (List.prefix_append _ _), ?_⟩
    have hall := hwithin (passed ++ [element]).length le_rfl
    rw [List.take_length] at hall
    simpa only [List.length_append, List.length_singleton] using hall
  · rintro ⟨hwithin, hlast⟩ count hcount
    by_cases hbefore : count ≤ passed.length
    · rw [List.take_append_of_le_length hbefore]
      exact hwithin count hbefore
    · have hall : count = passed.length + 1 := by
        simp only [List.length_append, List.length_singleton] at hcount
        omega
      rw [hall, List.take_of_length_le (by simp)]
      exact hlast

theorem Within.map (f : α → β) (hwithin : Within bound entered passed) :
    Within bound (entered.map f) (passed.map f) := by
  intro count hcount
  rw [List.length_map] at hcount
  rw [← List.map_take, ← List.map_take]
  obtain ⟨chosen, hperm, hsublist⟩ := hwithin count hcount
  exact ⟨chosen.map f, hperm.map f, hsublist.map f⟩

/-- Elements of one kind overtake no more of their kind than they overtake of all. -/
theorem Within.filter (keep : α → Bool) (hwithin : Within bound entered passed) :
    Within bound (entered.filter keep) (passed.filter keep) := by
  induction passed using List.reverseRecOn with
  | nil => simp
  | append_singleton passed element ih =>
    obtain ⟨hpassed, hlast⟩ := within_concat_iff.mp hwithin
    by_cases hkeep : keep element = true
    · have hfilter : (passed ++ [element]).filter keep = passed.filter keep ++ [element] := by
        simp [hkeep]
      rw [hfilter, within_concat_iff]
      refine ⟨ih hpassed, ?_⟩
      have hkept := hlast.filter keep
      rw [hfilter] at hkept
      refine hkept.trans (List.IsPrefix.sublist ?_).subperm
      -- As many elements that are not kept entered by then as came out.
      have hdropped := (hlast.filter (fun other ↦ !keep other)).length_le
      have hentered :=
        @List.length_eq_length_filter_add _ (entered.take (passed.length + 1 + bound)) keep
      have hboth := @List.length_eq_length_filter_add _ (passed ++ [element]) keep
      have hshort := List.length_take_le (passed.length + 1 + bound) entered
      rw [hfilter, List.length_append, List.length_append, List.length_singleton] at hboth
      rw [List.prefix_take_iff]
      refine ⟨(List.take_prefix _ _).filter keep, ?_⟩
      omega
    · have hfilter : (passed ++ [element]).filter keep = passed.filter keep := by
        simp [hkeep]
      rw [hfilter]
      exact ih hpassed

end TradeServers.Overtaking
