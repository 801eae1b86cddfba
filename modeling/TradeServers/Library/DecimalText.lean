import Mathlib.Data.Nat.Digits.Defs

/-!
# Numbers as decimal text

Integers written in decimal, as byte strings. `readInt_intText` says that reading gives back the
number that was written; a sign is told from the digits by `mem_natText`.
-/

set_option autoImplicit false
set_option relaxedAutoImplicit false

namespace TradeServers.DecimalText

/-- The byte `'-'`. -/
def minus : UInt8 := 45

/-- The byte of a decimal digit. -/
def digitByte (digit : ℕ) : UInt8 := UInt8.ofNat (48 + digit)

/-- The digit that a byte stands for. -/
def digitValue (byte : UInt8) : ℕ := byte.toNat - 48

/-- A natural number in decimal, without leading zeros. -/
def natText (number : ℕ) : List UInt8 :=
  if number = 0 then [digitByte 0] else (Nat.digits 10 number).reverse.map digitByte

/-- The number that a text of digits stands for; the empty text stands for zero. -/
def readNat (text : List UInt8) : ℕ :=
  text.foldl (fun number byte ↦ 10 * number + digitValue byte) 0

/-- An integer in decimal, with a sign when it is negative. -/
def intText (number : ℤ) : List UInt8 :=
  if number < 0 then minus :: natText number.natAbs else natText number.natAbs

/-- The integer that a text of digits with an optional sign stands for. -/
def readInt : List UInt8 → ℤ
  | [] => 0
  | byte :: text => if byte = minus then -(readNat text) else readNat (byte :: text)

theorem digitByte_toNat {digit : ℕ} (hdigit : digit < 10) :
    (digitByte digit).toNat = 48 + digit := by
  unfold digitByte
  rw [UInt8.toNat_ofNat']
  exact Nat.mod_eq_of_lt (by omega)

theorem digitValue_digitByte {digit : ℕ} (hdigit : digit < 10) :
    digitValue (digitByte digit) = digit := by
  rw [digitValue, digitByte_toNat hdigit, Nat.add_sub_cancel_left]

/-- Reading digits, most significant first, is evaluating the reversed list of digits. -/
theorem readNat_digits {digits : List ℕ} (hdigits : ∀ digit ∈ digits, digit < 10) :
    readNat (digits.reverse.map digitByte) = Nat.ofDigits 10 digits := by
  rw [readNat, List.map_reverse, List.foldl_reverse]
  induction digits with
  | nil => rfl
  | cons digit digits ih =>
    rw [List.map_cons, List.foldr_cons, ih fun other hother ↦ hdigits other (.tail _ hother),
      digitValue_digitByte (hdigits digit List.mem_cons_self), Nat.ofDigits_cons]
    exact Nat.add_comm _ _

theorem readNat_natText (number : ℕ) : readNat (natText number) = number := by
  unfold natText
  split
  · rename_i hzero
    rw [hzero]
    rfl
  · rw [readNat_digits fun _ hdigit ↦ Nat.digits_lt_base (by decide) hdigit, Nat.ofDigits_digits]

/-- The text of a natural number consists of digits. -/
theorem mem_natText {number : ℕ} {byte : UInt8} (hbyte : byte ∈ natText number) :
    48 ≤ byte.toNat ∧ byte.toNat ≤ 57 := by
  have hdigit : ∃ digit < 10, digitByte digit = byte := by
    unfold natText at hbyte
    split at hbyte
    · exact ⟨0, by decide, (List.mem_singleton.mp hbyte).symm⟩
    · obtain ⟨digit, hmem, heq⟩ := List.mem_map.mp hbyte
      exact ⟨digit, Nat.digits_lt_base (by decide) (List.mem_reverse.mp hmem), heq⟩
  obtain ⟨digit, hlt, rfl⟩ := hdigit
  rw [digitByte_toNat hlt]
  omega

theorem natText_ne_nil (number : ℕ) : natText number ≠ [] := by
  unfold natText
  split
  · exact List.cons_ne_nil _ _
  · rename_i hne
    rw [ne_eq, List.map_eq_nil_iff, List.reverse_eq_nil_iff, Nat.digits_eq_nil_iff_eq_zero]
    exact hne

/-- A number that is written without a sign is not read as negative. -/
theorem readInt_natText (number : ℕ) : readInt (natText number) = number := by
  cases htext : natText number with
  | nil => exact absurd htext (natText_ne_nil number)
  | cons byte text =>
    have hmem : byte ∈ natText number := htext ▸ List.mem_cons_self
    have hdigit := mem_natText hmem
    have hne : byte ≠ minus := by
      rintro rfl
      exact absurd hdigit.1 (by decide)
    rw [readInt, if_neg hne, ← htext, readNat_natText]

/-- An integer is read back from its text. -/
theorem readInt_intText (number : ℤ) : readInt (intText number) = number := by
  unfold intText
  split
  · rw [readInt, if_pos rfl, readNat_natText]
    omega
  · rw [readInt_natText]
    omega

end TradeServers.DecimalText
