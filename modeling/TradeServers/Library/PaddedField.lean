import TradeServers.Library.DelimitedStream
import Mathlib.Tactic.SplitIfs

/-!
# Fixed-width fields padded with a filler

A record of fixed-width slots stores a shorter value by filling the rest of its slot with a filler
symbol, and a reader recovers the value by searching for the first filler. `pad` is the writer,
`firstOccurrence_pad` says what the search finds in a padded slot, and `take_pad_eq_iff` when the
first symbols of a slot are exactly the value.
-/

set_option autoImplicit false
set_option relaxedAutoImplicit false

namespace TradeServers.PaddedField

open DelimitedStream

variable {α : Type*}

/-- The value, followed by as many fillers as its slot has left. -/
def pad (width : ℕ) (filler : α) (value : List α) : List α :=
  value ++ List.replicate (width - value.length) filler

theorem length_pad {width : ℕ} {filler : α} {value : List α} (hfit : value.length ≤ width) :
    (pad width filler value).length = width := by
  simp only [pad, List.length_append, List.length_replicate]
  omega

theorem pad_of_length_eq {width : ℕ} {filler : α} {value : List α}
    (hfull : value.length = width) : pad width filler value = value := by
  simp [pad, hfull]

@[simp] theorem pad_nil (width : ℕ) (filler : α) :
    pad width filler [] = List.replicate width filler := by
  simp [pad]

theorem take_length_pad (width : ℕ) (filler : α) (value : List α) :
    (pad width filler value).take value.length = value := by
  rw [pad, List.take_left]

/-- The first symbols of a slot are its value exactly when they are as many as the value has. -/
theorem take_pad_eq_iff {width count : ℕ} {filler : α} {value : List α}
    (hfit : value.length ≤ width) :
    (pad width filler value).take count = value ↔ value.length = min count width := by
  constructor
  · intro htake
    have hlength := congrArg List.length htake
    rw [List.length_take, length_pad hfit] at hlength
    exact hlength.symm
  · intro hlength
    rcases Nat.le_total count width with hcount | hcount
    · rw [← (hlength.trans (min_eq_left hcount) : value.length = count), take_length_pad]
    · have hfull : value.length = width := hlength.trans (min_eq_right hcount)
      rw [pad_of_length_eq hfull, List.take_of_length_le (by omega)]

/-- The first symbols of a slot are the slot of the first symbols of its value. -/
theorem take_pad (width count : ℕ) (filler : α) (value : List α) :
    (pad width filler value).take count = pad (min count width) filler (value.take count) := by
  rw [pad, pad, List.take_append, List.take_replicate, List.length_take]
  congr 2
  omega

theorem length_le_of_length_pad {width : ℕ} {filler : α} {value : List α}
    (hpad : (pad width filler value).length = width) : value.length ≤ width := by
  rw [pad, List.length_append] at hpad
  omega

/-- A slot that was cut somewhere behind its value is filled up to the same slot again. -/
theorem pad_take_pad {width count : ℕ} {filler : α} {value : List α}
    (hfit : value.length ≤ width) (hcount : value.length ≤ count) :
    pad width filler ((pad width filler value).take count) = pad width filler value := by
  rw [take_pad, List.take_of_length_le hcount]
  simp only [pad, List.append_assoc, List.length_append, List.length_replicate,
    ← List.replicate_add]
  congr 2
  omega

section Search

variable [DecidableEq α]

/-- A value without fillers is found to end where its padding starts; a value that fills its slot
is not found to end at all. -/
theorem firstOccurrence_pad {width : ℕ} {filler : α} {value : List α} (habsent : filler ∉ value)
    (hfit : value.length ≤ width) :
    firstOccurrence [filler] (pad width filler value) =
      if value.length < width then some value.length else none := by
  split_ifs with hshort
  · obtain ⟨room, hroom⟩ := Nat.exists_eq_add_of_lt hshort
    refine firstOccurrence_eq_some_iff.mpr ⟨?_, ?_, fun earlier hlt hfound ↦ ?_⟩
    · rw [length_pad hfit]
      exact hfit
    · have hpadding : width - value.length = room + 1 := by omega
      rw [pad, List.drop_left, hpadding, List.replicate_succ]
      exact ⟨List.replicate room filler, rfl⟩
    · rw [pad, List.drop_append_of_le_length hlt.le, List.drop_eq_getElem_cons hlt,
        List.cons_append, List.cons_prefix_cons] at hfound
      exact habsent (hfound.1 ▸ List.getElem_mem hlt)
  · rw [pad_of_length_eq (by omega), firstOccurrence_eq_none_iff]
    exact fun hoccurs ↦ habsent (hoccurs.subset (by simp))

/-- Values without fillers are equal when their padded slots are. -/
theorem pad_injective {width : ℕ} {filler : α} {first second : List α}
    (hfirst : filler ∉ first) (hsecond : filler ∉ second)
    (hpad : pad width filler first = pad width filler second) : first = second := by
  have hfilter (value : List α) (habsent : filler ∉ value) :
      (pad width filler value).filter (· ≠ filler) = value := by
    rw [pad, List.filter_append, List.filter_eq_self.mpr, List.filter_eq_nil_iff.mpr,
      List.append_nil]
    · intro symbol hsymbol
      simp [List.eq_of_mem_replicate hsymbol]
    · intro symbol hsymbol
      have hne : symbol ≠ filler := ne_of_mem_of_not_mem hsymbol habsent
      simpa using hne
  rw [← hfilter first hfirst, hpad, hfilter second hsecond]

end Search

end TradeServers.PaddedField
