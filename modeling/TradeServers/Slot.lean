import TradeServers.Bytes
import TradeServers.Library.PaddedField

/-!
# Slots of byte headers

The programs write header values into fixed-width slots over a ground of one byte, and read them
back by cutting the slot at the first occurrence of a terminator. Where writer and reader use the
same byte, every nonempty value comes back (`cutAt_pad_eq_iff`); where they use different ones, only
a value that fills its slot does (`cutAt_pad_other_eq_iff`).
-/

set_option autoImplicit false
set_option relaxedAutoImplicit false

namespace TradeServers

open DelimitedStream PaddedField

/-- The value of a slot, cut at its first terminator. The comparison `find(terminator) > 0` is
unsigned, so it also holds for `npos`, and the slot is then taken whole. -/
def cutAt (terminator : UInt8) (slotBuf : Bytes) : Bytes :=
  if 0 < find slotBuf [terminator] then substr slotBuf 0 (find slotBuf [terminator]) else slotBuf

variable {filler terminator : UInt8} {width : ℕ} {value : Bytes}

theorem find_pad (habsent : filler ∉ value) (hfit : value.length ≤ width) :
    find (pad width filler value) [filler] =
      if value.length < width then value.length else npos := by
  rw [find, firstOccurrence_pad habsent hfit]
  split_ifs <;> rfl

/-- A nonempty value is cut out of its slot; an empty one leaves the slot as it is. -/
theorem cutAt_pad_eq_iff (hwidth : 0 < width) (hnpos : width ≤ npos) (habsent : filler ∉ value)
    (hfit : value.length ≤ width) : cutAt filler (pad width filler value) = value ↔ value ≠ [] := by
  rw [cutAt, find_pad habsent hfit]
  constructor
  · rintro hcut rfl
    rw [List.length_nil, if_pos hwidth, if_neg (lt_irrefl 0), pad_nil,
      List.replicate_eq_nil_iff] at hcut
    omega
  · intro hne
    have hpos : 0 < value.length := List.length_pos_iff.mpr hne
    split_ifs
    · exact take_length_pad width filler value
    · rw [substr, List.drop_zero, take_pad_eq_iff hfit]
      omega
    · omega

theorem find_of_not_mem {text : Bytes} (habsent : terminator ∉ text) :
    find text [terminator] = npos := by
  apply find_of_none
  rw [firstOccurrence_eq_none_iff]
  exact fun hoccurs ↦ habsent (hoccurs.subset List.mem_cons_self)

theorem not_mem_pad (hother : terminator ≠ filler) (habsent : terminator ∉ value) :
    terminator ∉ pad width filler value := by
  intro hmem
  rcases List.mem_append.mp hmem with hvalue | hpadding
  · exact habsent hvalue
  · exact hother (List.eq_of_mem_replicate hpadding)

theorem pad_eq_self_iff (hfit : value.length ≤ width) :
    pad width filler value = value ↔ value.length = width := by
  constructor
  · intro hpad
    rw [← congrArg List.length hpad, length_pad hfit]
  · exact pad_of_length_eq

/-- A slot that was padded with another byte gives back its value only when there is no padding. -/
theorem cutAt_pad_other_eq_iff (hother : terminator ≠ filler) (hnpos : width ≤ npos)
    (habsent : terminator ∉ value) (hfit : value.length ≤ width) :
    cutAt terminator (pad width filler value) = value ↔ value.length = width := by
  rw [cutAt, find_of_not_mem (not_mem_pad hother habsent), if_pos (by decide), substr,
    List.drop_zero, List.take_of_length_le (by rw [length_pad hfit]; exact hnpos),
    pad_eq_self_iff hfit]

end TradeServers
