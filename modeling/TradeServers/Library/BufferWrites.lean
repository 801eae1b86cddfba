import Mathlib.Data.List.GetD

/-!
# Writes into a buffer

A program that fills a buffer writes bytes at offsets from its start, and nothing keeps it inside.
This module has the memory that a sequence of writes leaves, and the rules by which writes that
continue each other become one.

- `applyAll_of_within`: writes within a capacity leave the memory behind it as it was.
- `apply_apply`: a write that starts inside the one before, and covers the rest of it.
- `read_apply`: a write is read back.
-/

set_option autoImplicit false
set_option relaxedAutoImplicit false

namespace TradeServers.BufferWrites

variable {β : Type*}

/-- Bytes that are written at an offset. -/
structure Write (β : Type*) where
  offset : ℕ
  bytes : List β

/-- The first offset behind a write. -/
def Write.finish (write : Write β) : ℕ := write.offset + write.bytes.length

/-- The memory after a write. -/
def Write.apply (write : Write β) (memory : ℕ → β) : ℕ → β := fun index ↦
  if write.offset ≤ index then write.bytes.getD (index - write.offset) (memory index)
  else memory index

/-- The memory after a sequence of writes. -/
def applyAll (writes : List (Write β)) (memory : ℕ → β) : ℕ → β :=
  writes.foldl (fun memory write ↦ write.apply memory) memory

/-- The first bytes of the memory. -/
def read (memory : ℕ → β) (count : ℕ) : List β := (List.range count).map memory

/-- The writes stay within a buffer of this capacity. -/
def Within (capacity : ℕ) (writes : List (Write β)) : Prop :=
  ∀ write ∈ writes, write.finish ≤ capacity

theorem Write.apply_of_finish_le {write : Write β} {index : ℕ} (hindex : write.finish ≤ index)
    (memory : ℕ → β) : write.apply memory index = memory index := by
  unfold finish at hindex
  unfold apply
  by_cases hstart : write.offset ≤ index
  · rw [if_pos hstart]
    exact List.getD_eq_default _ _ (by omega)
  · rw [if_neg hstart]

/-- Writes within a capacity leave the memory behind it as it was. -/
theorem applyAll_of_within {capacity : ℕ} {writes : List (Write β)}
    (hwithin : Within capacity writes) {index : ℕ} (hindex : capacity ≤ index) (memory : ℕ → β) :
    applyAll writes memory index = memory index := by
  induction writes generalizing memory with
  | nil => rfl
  | cons write writes ih =>
    have hfinish : write.finish ≤ index := Nat.le_trans (hwithin write List.mem_cons_self) hindex
    have hrest : Within capacity writes := fun later hlater ↦
      hwithin later (List.mem_cons_of_mem _ hlater)
    change applyAll writes (write.apply memory) index = _
    rw [ih hrest, Write.apply_of_finish_le hfinish]

/-- A write that starts inside the one before, and covers the rest of it. -/
theorem apply_apply (offset : ℕ) (front rest back : List β) (hcover : rest.length ≤ back.length)
    (memory : ℕ → β) :
    (⟨offset + front.length, back⟩ : Write β).apply
        ((⟨offset, front ++ rest⟩ : Write β).apply memory) =
      (⟨offset, front ++ back⟩ : Write β).apply memory := by
  funext index
  unfold Write.apply
  dsimp only
  by_cases hinside : offset + front.length ≤ index
  · have hstart : offset ≤ index := by omega
    have hfront : front.length ≤ index - offset := by omega
    have hsub : index - (offset + front.length) = index - offset - front.length := by omega
    rw [if_pos hinside, if_pos hstart, if_pos hstart, List.getD_append_right _ _ _ _ hfront,
      List.getD_append_right _ _ _ _ hfront, hsub]
    by_cases hback : index - offset - front.length < back.length
    · rw [List.getD_eq_getElem _ _ hback, List.getD_eq_getElem _ _ hback]
    · rw [List.getD_eq_default _ _ (by omega), List.getD_eq_default _ _ (by omega),
        List.getD_eq_default _ _ (by omega)]
  · rw [if_neg hinside]
    by_cases hstart : offset ≤ index
    · have hfront : index - offset < front.length := by omega
      rw [if_pos hstart, if_pos hstart, List.getD_append _ _ _ _ hfront,
        List.getD_append _ _ _ _ hfront]
    · rw [if_neg hstart, if_neg hstart]

/-- A write at the start of the buffer is read back. -/
theorem read_apply (bytes : List β) (memory : ℕ → β) :
    read ((⟨0, bytes⟩ : Write β).apply memory) bytes.length = bytes := by
  refine List.ext_getElem (by simp [read]) fun index hleft hright ↦ ?_
  simp [read, Write.apply, List.getElem?_eq_getElem hright]

end TradeServers.BufferWrites
