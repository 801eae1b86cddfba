import TradeServers.Bytes
import TradeServers.Library.SqlLiteral
import Mathlib.Data.List.TakeWhile

/-!
# Values in statement texts

The clients of MySQL in this repository paste their values into statement texts without escaping
them. `TextSafe` says of a value that it survives that: it passes through C strings, and the lexer
of the server reads it back between double quotes. The text around the values is `Unquoted`.
-/

set_option autoImplicit false
set_option relaxedAutoImplicit false

namespace TradeServers

open SqlLiteral

/-- What a C function sees of a string's `c_str()`: the bytes in front of the first NUL. -/
def cString (text : Bytes) : Bytes := text.takeWhile (· ≠ 0)

theorem cString_eq_of_nul {value : Bytes} (hnul : 0 ∉ value) : cString value = value := by
  apply List.takeWhile_eq_self_iff.mpr
  intro byte hbyte
  have hne : byte ≠ 0 := ne_of_mem_of_not_mem hbyte hnul
  simpa using hne

theorem nul_not_mem_cString (text : Bytes) : 0 ∉ cString text := by
  intro hmem
  have hne := List.mem_takeWhile_imp hmem
  simp at hne

/-- A C string goes on behind a part without NUL. -/
theorem cString_append_of_nul_not_mem {first : Bytes} (hnul : 0 ∉ first) (second : Bytes) :
    cString (first ++ second) = first ++ cString second := by
  have hall : ∀ byte ∈ first, decide (byte ≠ 0) = true := fun byte hbyte ↦
    decide_eq_true (ne_of_mem_of_not_mem hbyte hnul)
  exact List.takeWhile_append_of_pos hall

/-- A text with a NUL hides what follows it. -/
theorem cString_append_of_nul {text : Bytes} (hnul : 0 ∈ text) (rest : Bytes) :
    cString (text ++ rest) = cString text := by
  unfold cString
  rw [List.takeWhile_append, if_neg]
  intro hlength
  have hall := (List.takeWhile_sublist fun byte : UInt8 ↦ decide (byte ≠ 0)).eq_of_length hlength
  have hzero := List.takeWhile_eq_self_iff.mp hall 0 hnul
  exact of_decide_eq_true hzero rfl

/-- A value that a statement text can hold as it is: no NUL, no double quote and no
backslash. -/
structure TextSafe (value : Bytes) : Prop where
  nul : 0 ∉ value
  clean : Clean doubleQuote value

instance (quote : UInt8) (value : Bytes) : Decidable (Clean quote value) :=
  decidable_of_iff (quote ∉ value ∧ backslash ∉ value)
    ⟨fun hboth ↦ ⟨hboth.1, hboth.2⟩, fun hclean ↦ ⟨hclean.quote, hclean.backslash⟩⟩

instance (value : Bytes) : Decidable (TextSafe value) :=
  decidable_of_iff (0 ∉ value ∧ Clean doubleQuote value)
    ⟨fun hboth ↦ ⟨hboth.1, hboth.2⟩, fun hsafe ↦ ⟨hsafe.nul, hsafe.clean⟩⟩

theorem TextSafe.cString_eq {value : Bytes} (hsafe : TextSafe value) : cString value = value :=
  cString_eq_of_nul hsafe.nul

theorem TextSafe.take {value : Bytes} (hsafe : TextSafe value) (count : ℕ) :
    TextSafe (value.take count) :=
  ⟨fun hnul ↦ hsafe.nul (List.mem_of_mem_take hnul),
    fun hquote ↦ hsafe.clean.quote (List.mem_of_mem_take hquote),
    fun hbackslash ↦ hsafe.clean.backslash (List.mem_of_mem_take hbackslash)⟩

/-! ### Text around the values -/

/-- A text that contains neither kind of quotes. -/
structure Unquoted (text : Bytes) : Prop where
  double : doubleQuote ∉ text
  single : singleQuote ∉ text

instance (text : Bytes) : Decidable (Unquoted text) :=
  decidable_of_iff (doubleQuote ∉ text ∧ singleQuote ∉ text)
    ⟨fun hboth ↦ ⟨hboth.1, hboth.2⟩, fun hplain ↦ ⟨hplain.double, hplain.single⟩⟩

theorem Unquoted.append {first second : Bytes} (hfirst : Unquoted first)
    (hsecond : Unquoted second) : Unquoted (first ++ second) :=
  ⟨fun hmem ↦ (List.mem_append.mp hmem).elim hfirst.double hsecond.double,
    fun hmem ↦ (List.mem_append.mp hmem).elim hfirst.single hsecond.single⟩

end TradeServers
