import Mathlib.Data.List.DropRight
import Mathlib.Tactic.SplitIfs

/-!
# Texts of lines and words

A text is cut into lines at one symbol and a line into words at others. `lines_of_ne_nil` and
`words_of_ne_nil` say how a reader that goes through the text from the front meets them.

A reader of entries may keep what an entry does not give from earlier ones. `lastOf` is the last
entry of a kind and `given` what that entry itself gives; `carried` is what such a reader has at
hand there. Where that entry gives something, the two agree (`carried_of_given`).
-/

set_option autoImplicit false
set_option relaxedAutoImplicit false

namespace TradeServers.Words

variable {α : Type*}

/-! ### Words -/

section Words

variable {separator : α → Bool}

/-- The words of a text: the pieces between separators that are not empty. -/
def words (separator : α → Bool) (text : List α) : List (List α) :=
  (text.splitOnP separator).filter fun piece ↦ !piece.isEmpty

theorem words_cons_of_separator {symbol : α} (hsymbol : separator symbol) (text : List α) :
    words separator (symbol :: text) = words separator text := by
  simp [words, List.splitOnP_cons_eq_if_modifyHead, hsymbol]

/-- Separators in front do not matter. -/
theorem words_dropWhile (text : List α) :
    words separator (text.dropWhile separator) = words separator text := by
  induction text with
  | nil => rfl
  | cons symbol text ih =>
    by_cases hsymbol : separator symbol
    · rw [List.dropWhile_cons_of_pos hsymbol, ih, words_cons_of_separator hsymbol]
    · rw [List.dropWhile_cons_of_neg hsymbol]

/-- The first piece of a text ends at the first separator, and the other pieces give the words of
what begins there. -/
theorem splitOnP_eq (separator : α → Bool) (text : List α) : ∃ pieces,
    text.splitOnP separator = text.takeWhile (fun symbol ↦ !separator symbol) :: pieces ∧
      words separator (text.dropWhile fun symbol ↦ !separator symbol) =
        pieces.filter fun piece ↦ !piece.isEmpty := by
  induction text with
  | nil => exact ⟨[], rfl, rfl⟩
  | cons symbol text ih =>
    obtain ⟨pieces, hsplit, hpieces⟩ := ih
    by_cases hsymbol : separator symbol
    · refine ⟨text.splitOnP separator, ?_, ?_⟩
      · simp [List.splitOnP_cons_eq_if_modifyHead, hsymbol]
      · rw [List.dropWhile_cons_of_neg (by simp [hsymbol]), words_cons_of_separator hsymbol, words]
    · refine ⟨pieces, ?_, ?_⟩
      · simp [List.splitOnP_cons_eq_if_modifyHead, hsymbol, hsplit]
      · rw [List.dropWhile_cons_of_pos (by simp [hsymbol]), hpieces]

/-- A text of separators has no words. -/
theorem words_of_nil {text : List α} (hblank : text.dropWhile separator = []) :
    words separator text = [] := by
  rw [← words_dropWhile, hblank]
  rfl

/-- The words of any other text are the one behind the first separators and those of the rest. -/
theorem words_of_ne_nil {text : List α} (hword : text.dropWhile separator ≠ []) :
    words separator text =
      ((text.dropWhile separator).takeWhile fun symbol ↦ !separator symbol) ::
        words separator ((text.dropWhile separator).dropWhile fun symbol ↦ !separator symbol) := by
  obtain ⟨pieces, hsplit, hpieces⟩ := splitOnP_eq separator (text.dropWhile separator)
  have hhead : separator ((text.dropWhile separator).head hword) = false :=
    List.head_dropWhile_not separator hword
  have hfirst : ((text.dropWhile separator).takeWhile fun symbol ↦ !separator symbol) ≠ [] := by
    rw [← List.cons_head_tail hword, List.takeWhile_cons_of_pos (by simp [hhead])]
    exact List.cons_ne_nil _ _
  rw [hpieces, ← words_dropWhile, words, hsplit, List.filter_cons_of_pos]
  simpa using hfirst

end Words

/-! ### Lines -/

section Lines

variable [DecidableEq α]

/-- The lines of a text. What stands behind the last line end is a line when it is not empty. -/
def lines (newline : α) : List α → List (List α)
  | [] => []
  | symbol :: text =>
    if symbol = newline then [] :: lines newline text
    else
      match lines newline text with
      | [] => [[symbol]]
      | line :: rest => (symbol :: line) :: rest

/-- The first line ends at the first line end, and behind it begin the others. -/
theorem lines_of_ne_nil {newline : α} {text : List α} (htext : text ≠ []) :
    lines newline text = (text.takeWhile fun symbol ↦ symbol ≠ newline) ::
      lines newline (text.dropWhile fun symbol ↦ symbol ≠ newline).tail := by
  induction text with
  | nil => exact absurd rfl htext
  | cons symbol text ih =>
    rw [lines]
    by_cases hsymbol : symbol = newline
    · simp [hsymbol]
    · rw [if_neg hsymbol, List.takeWhile_cons_of_pos (by simp [hsymbol]),
        List.dropWhile_cons_of_pos (by simp [hsymbol])]
      by_cases hrest : text = []
      · subst hrest
        rfl
      · rw [ih hrest]

end Lines

/-! ### The last entry of a kind -/

section LastOf

variable {ι ν : Type*} {select : ι → Bool} {valueOf : ι → Option ν} {initial value : ν}

/-- The value that a reader has at hand behind the given entries. -/
def latest (valueOf : ι → Option ν) (initial : ν) (entries : List ι) : ν :=
  (entries.filterMap valueOf).getLast?.getD initial

@[simp] theorem latest_nil : latest valueOf initial [] = initial := rfl

theorem latest_concat (entries : List ι) (entry : ι) :
    latest valueOf initial (entries ++ [entry]) =
      (valueOf entry).getD (latest valueOf initial entries) := by
  unfold latest
  cases hvalue : valueOf entry <;> simp [hvalue]

/-- The last selected entry. -/
def lastOf (select : ι → Bool) (entries : List ι) : Option ι := (entries.filter select).getLast?

theorem lastOf_concat_of_pos {entry : ι} (hentry : select entry) (entries : List ι) :
    lastOf select (entries ++ [entry]) = some entry := by
  simp [lastOf, hentry]

theorem lastOf_concat_of_neg {entry : ι} (hentry : ¬ select entry) (entries : List ι) :
    lastOf select (entries ++ [entry]) = lastOf select entries := by
  simp [lastOf, hentry]

/-- What the last selected entry gives. -/
def given (select : ι → Bool) (valueOf : ι → Option ν) (entries : List ι) : Option ν :=
  (lastOf select entries).bind valueOf

/-- What a reader has at hand at the last selected entry. -/
def carried (select : ι → Bool) (valueOf : ι → Option ν) (initial : ν) (entries : List ι) :
    Option ν :=
  (lastOf select entries).map fun _ ↦
    latest valueOf initial (entries.rdropWhile fun entry ↦ !select entry)

@[simp] theorem carried_nil : carried select valueOf initial [] = none := rfl

theorem carried_eq_none_iff {entries : List ι} :
    carried select valueOf initial entries = none ↔ ∀ entry ∈ entries, ¬ select entry := by
  simp [carried, lastOf]

theorem carried_concat_of_pos {entry : ι} (hentry : select entry) (entries : List ι) :
    carried select valueOf initial (entries ++ [entry]) =
      some (latest valueOf initial (entries ++ [entry])) := by
  rw [carried, lastOf_concat_of_pos hentry, List.rdropWhile_concat_neg _ _ _ (by simp [hentry]),
    Option.map_some]

theorem carried_concat_of_neg {entry : ι} (hentry : ¬ select entry) (entries : List ι) :
    carried select valueOf initial (entries ++ [entry]) =
      carried select valueOf initial entries := by
  rw [carried, lastOf_concat_of_neg hentry, List.rdropWhile_concat_pos _ _ _ (by simp [hentry]),
    carried]

/-- What the last selected entry gives is what the reader has there. -/
theorem carried_of_given {entries : List ι} (hgiven : given select valueOf entries = some value) :
    carried select valueOf initial entries = some value := by
  induction entries using List.reverseRecOn with
  | nil => cases hgiven
  | append_singleton entries entry ih =>
    by_cases hentry : select entry
    · rw [given, lastOf_concat_of_pos hentry, Option.bind_some] at hgiven
      rw [carried_concat_of_pos hentry, latest_concat, hgiven, Option.getD_some]
    · rw [given, lastOf_concat_of_neg hentry] at hgiven
      rw [carried_concat_of_neg hentry]
      exact ih hgiven

end LastOf

end TradeServers.Words
