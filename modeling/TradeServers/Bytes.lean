import TradeServers.Library.DelimitedStream
import Mathlib.Data.Int.ModEq
import Mathlib.Tactic.SplitIfs

/-!
# Byte strings and machine integers of the servers

The servers handle `std::string` values, `size_t` positions and `int` counters. A string is the
list of its bytes, and the library calls the servers make on strings are defined here under their
C++ names. Conversions between `size_t` (64 bits) and `int` (32 bits) are explicit, since the codec
stores a search position in an `int`.
-/

set_option autoImplicit false
set_option relaxedAutoImplicit false

namespace TradeServers

open DelimitedStream

/-- The bytes of a `std::string`. -/
abbrev Bytes := List UInt8

/-- The bytes of a string literal of the source. -/
def ascii (text : String) : Bytes := text.toList.map fun character ↦ UInt8.ofNat character.toNat

/-- The padding byte `' '`. -/
def space : UInt8 := 32

/-! ### Machine integers -/

/-- `static_cast<int>` of a `size_t`. -/
def toInt32 (value : ℕ) : ℤ := (value : ℤ).bmod (2 ^ 32)

/-- The sum of two `int` values. Signed overflow, which C++ leaves undefined, wraps here; no
theorem about the servers reaches it. -/
def addInt32 (first second : ℤ) : ℤ := (first + second).bmod (2 ^ 32)

/-- The conversion of an `int` to a `size_t`. -/
def toSize (value : ℤ) : ℕ := (value % 2 ^ 64).toNat

theorem bmod_word {value : ℤ} (hlow : -2 ^ 31 ≤ value) (hhigh : value < 2 ^ 31) :
    value.bmod (2 ^ 32) = value := by
  rw [Int.bmod_def]
  split_ifs <;> omega

theorem toInt32_of_lt {value : ℕ} (hvalue : value < 2 ^ 31) : toInt32 value = value :=
  bmod_word (by omega) (by omega)

/-- The upper half of the 32-bit range is read as negative. -/
theorem toInt32_neg_of_high {value : ℕ} (hlow : 2 ^ 31 ≤ value) (hhigh : value < 2 ^ 32) :
    toInt32 value < 0 := by
  unfold toInt32
  rw [Int.bmod_def]
  split_ifs <;> omega

theorem toInt32_lt (value : ℕ) : toInt32 value < 2 ^ 31 := by
  unfold toInt32
  rw [Int.bmod_def]
  split_ifs <;> omega

theorem toInt32_eq_self_iff {value : ℕ} : toInt32 value = value ↔ value < 2 ^ 31 := by
  constructor
  · intro hvalue
    have hlt := toInt32_lt value
    omega
  · exact toInt32_of_lt

theorem addInt32_of_bounds {first second : ℤ} (hlow : -2 ^ 31 ≤ first + second)
    (hhigh : first + second < 2 ^ 31) : addInt32 first second = first + second :=
  bmod_word hlow hhigh

theorem toSize_natCast {value : ℕ} (hvalue : value < 2 ^ 64) : toSize value = value := by
  unfold toSize
  omega

/-! ### Strings -/

/-- `std::string::npos`. -/
def npos : ℕ := 2 ^ 64 - 1

/-- `text.find(pattern)`: the first position of the pattern, or `npos`. -/
def find (text pattern : Bytes) : ℕ := (firstOccurrence pattern text).getD npos

/-- `text.substr(position, count)`; the servers only pass positions inside the text. -/
def substr (text : Bytes) (position count : ℕ) : Bytes := (text.drop position).take count

theorem find_of_some {text pattern : Bytes} {position : ℕ}
    (hfirst : firstOccurrence pattern text = some position) : find text pattern = position := by
  rw [find, hfirst, Option.getD_some]

theorem find_of_none {text pattern : Bytes} (hnone : firstOccurrence pattern text = none) :
    find text pattern = npos := by
  rw [find, hnone, Option.getD_none]

/-- `memcpy` of `source` to an offset of a byte region. -/
def memcpy (region : Bytes) (offset : ℕ) (source : Bytes) : Bytes :=
  region.take offset ++ source ++ region.drop (offset + source.length)

end TradeServers
