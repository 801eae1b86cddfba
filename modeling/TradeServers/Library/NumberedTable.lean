import Mathlib.Data.Nat.Find
import Mathlib.Logic.Function.Basic

/-!
# Tables that number their rows

A table with an AUTO_INCREMENT key. A row is stored under the key it is given with, where zero asks
the table for its next key. Rows are never stored under zero, and the next key is above every key in
use, so that a drawn key is new.

A client that wants to know which key was drawn may ask for the largest key afterwards. That is the
drawn key as long as the row is there and no larger key is in use (`maxKey_eq_iff`).
-/

set_option autoImplicit false
set_option relaxedAutoImplicit false

namespace TradeServers

/-- A table of rows under positive keys, and the key it draws next. -/
structure NumberedTable (ρ : Type*) where
  rows : ℕ → Option ρ
  next : ℕ
  next_pos : 0 < next
  rows_zero : rows 0 = none
  rows_of_le : ∀ key, next ≤ key → rows key = none

namespace NumberedTable

variable {ρ : Type*}

/-- The empty table. -/
def empty : NumberedTable ρ where
  rows := fun _ ↦ none
  next := 1
  next_pos := Nat.zero_lt_one
  rows_zero := rfl
  rows_of_le := fun _ _ ↦ rfl

/-- The key under which a row is stored that is given with `key`. -/
def keyFor (table : NumberedTable ρ) (key : ℕ) : ℕ := if key = 0 then table.next else key

theorem keyFor_pos (table : NumberedTable ρ) (key : ℕ) : 0 < table.keyFor key := by
  unfold keyFor
  split
  · exact table.next_pos
  · exact Nat.pos_of_ne_zero ‹_›

theorem keyFor_of_pos (table : NumberedTable ρ) {key : ℕ} (hkey : 0 < key) :
    table.keyFor key = key :=
  if_neg (Nat.ne_of_gt hkey)

/-- `REPLACE` of one row. -/
def replace (table : NumberedTable ρ) (key : ℕ) (row : ρ) : NumberedTable ρ where
  rows := Function.update table.rows (table.keyFor key) (some row)
  next := max table.next (table.keyFor key + 1)
  next_pos := Nat.lt_of_lt_of_le table.next_pos (Nat.le_max_left _ _)
  rows_zero := by
    rw [Function.update_of_ne (Nat.ne_of_lt (table.keyFor_pos key)), table.rows_zero]
  rows_of_le := by
    intro other hother
    have hne : other ≠ table.keyFor key := by omega
    rw [Function.update_of_ne hne, table.rows_of_le other (by omega)]

/-- `DELETE` of the rows that meet a condition. -/
def delete (table : NumberedTable ρ) (condition : ℕ → ρ → Bool) : NumberedTable ρ where
  rows := fun key ↦ (table.rows key).filter fun row ↦ !condition key row
  next := table.next
  next_pos := table.next_pos
  rows_zero := by
    rw [table.rows_zero, Option.filter_none]
  rows_of_le := by
    intro key hkey
    rw [table.rows_of_le key hkey, Option.filter_none]

/-- The largest key in use; zero when there is none. -/
def maxKey (table : NumberedTable ρ) : ℕ :=
  Nat.findGreatest (fun key ↦ (table.rows key).isSome) table.next

/-- `SELECT MAX` of the key: NULL when there are no rows. -/
def selectMax (table : NumberedTable ρ) : Option ℕ :=
  if table.maxKey = 0 then none else some table.maxKey

/-- The key is in use, and no larger key is. -/
structure Last (table : NumberedTable ρ) (key : ℕ) : Prop where
  inUse : (table.rows key).isSome
  above : ∀ other, key < other → table.rows other = none

theorem maxKey_eq_iff (table : NumberedTable ρ) {key : ℕ} (hkey : 0 < key) :
    table.maxKey = key ↔ table.Last key := by
  have hle (hsome : (table.rows key).isSome) : key ≤ table.next := by
    by_contra hlt
    rw [table.rows_of_le key (by omega)] at hsome
    cases hsome
  unfold maxKey
  rw [Nat.findGreatest_eq_iff]
  constructor
  · rintro ⟨-, hsome, habove⟩
    refine ⟨hsome (Nat.ne_of_gt hkey), fun other hother ↦ ?_⟩
    by_cases hnext : table.next ≤ other
    · exact table.rows_of_le other hnext
    · exact Option.not_isSome_iff_eq_none.mp (habove hother (by omega))
  · rintro ⟨hsome, habove⟩
    refine ⟨hle hsome, fun _ ↦ hsome, fun other hother _ ↦ ?_⟩
    rw [habove other hother]
    exact Bool.false_ne_true

theorem selectMax_eq_some_iff (table : NumberedTable ρ) {key : ℕ} (hkey : 0 < key) :
    table.selectMax = some key ↔ table.Last key := by
  rw [← table.maxKey_eq_iff hkey]
  unfold selectMax
  split
  · rename_i hzero
    exact ⟨nofun, fun hmax ↦ absurd (hmax.symm.trans hzero) (Nat.ne_of_gt hkey)⟩
  · exact Option.some_inj

end NumberedTable

end TradeServers
