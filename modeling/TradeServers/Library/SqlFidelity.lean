import TradeServers.Library.SqlLiteral

/-!
# When a pasted value is read back

`SqlLiteral` says how a value has to be pasted to be read back. This module says when a value that
is pasted as it is will be read back: exactly when it is `Verbatim`. A byte that the lexer treats
specially costs the literal a byte, and a literal that ran past its closing quote to make up for it
would have to contain that quote and the byte behind it, which a value that is read back cannot
(`Reads.overrun`).

`Reads` cuts what the lexer consumes inside a literal into its tokens, and `lex_paste_eq_iff`
reduces the reading of a whole statement to the reading of each of its literals. For a statement
whose literals are all pasted as they are, `Statement.lex_written_iff` puts the two together, and
`Statement.size_le_of_lex` says that such a text has no byte to spare.
-/

set_option autoImplicit false
set_option relaxedAutoImplicit false

namespace TradeServers.SqlLiteral

/-! ### The tokens of a literal -/

/-- Inside a literal, the lexer consumes a text and yields a value for it. -/
inductive Reads (quote : UInt8) : List UInt8 → List UInt8 → Prop
  | nil : Reads quote [] []
  | plain {byte : UInt8} {consumed value : List UInt8} : byte ≠ quote → byte ≠ backslash →
      Reads quote consumed value → Reads quote (byte :: consumed) (byte :: value)
  | doubled {consumed value : List UInt8} :
      Reads quote consumed value → Reads quote (quote :: quote :: consumed) (quote :: value)
  | escaped (next : UInt8) {consumed value : List UInt8} :
      Reads quote consumed value →
      Reads quote (backslash :: next :: consumed) (unescape next ++ value)

variable {quote : UInt8}

theorem scan_doubled (text : List UInt8) :
    scan quote (quote :: quote :: text) =
      (scan quote text).map fun read ↦ (quote :: read.1, read.2) := by
  rw [scan, if_pos rfl, if_pos rfl]

theorem Reads.scan {consumed value left : List UInt8} (hquote : backslash ≠ quote)
    (hreads : Reads quote consumed value) (hleft : Separate quote left) :
    scan quote (consumed ++ quote :: left) = some (value, left) := by
  induction hreads with
  | nil => exact scan_close hleft
  | plain hplain hbackslash _ ih =>
    rw [List.cons_append, scan_plain hplain hbackslash, ih]
    rfl
  | doubled _ ih =>
    rw [List.cons_append, List.cons_append, scan_doubled, ih]
    rfl
  | escaped next _ ih =>
    rw [List.cons_append, List.cons_append, scan_escaped hquote, ih]
    rfl

/-- What the lexer reads of a literal is a sequence of tokens and the closing quote. -/
theorem reads_of_scan {text : List UInt8} :
    ∀ {read : List UInt8 × List UInt8}, scan quote text = some read →
      ∃ consumed, Reads quote consumed read.1 ∧ Separate quote read.2 ∧
        text = consumed ++ quote :: read.2 := by
  induction text using scan.induct quote with
  | case1 =>
    intro read hread
    rw [scan] at hread
    cases hread
  | case2 =>
    intro read hread
    rw [scan, if_pos rfl, Option.some.injEq] at hread
    subst hread
    exact ⟨[], .nil, (Option.some_ne_none _).symm, rfl⟩
  | case3 byte hne =>
    intro read hread
    rw [scan, if_neg hne] at hread
    cases hread
  | case4 rest ih =>
    intro read hread
    rw [scan_doubled, Option.map_eq_some_iff] at hread
    obtain ⟨inner, hinner, rfl⟩ := hread
    obtain ⟨consumed, hreads, hleft, htext⟩ := ih hinner
    exact ⟨quote :: quote :: consumed, .doubled hreads, hleft, by rw [htext]; rfl⟩
  | case5 next rest hne =>
    intro read hread
    rw [scan, if_pos rfl, if_neg hne, Option.some.injEq] at hread
    subst hread
    exact ⟨[], .nil, fun hhead ↦ hne (Option.some.inj hhead), rfl⟩
  | case6 next rest hquote ih =>
    intro read hread
    rw [scan_escaped hquote, Option.map_eq_some_iff] at hread
    obtain ⟨inner, hinner, rfl⟩ := hread
    obtain ⟨consumed, hreads, hleft, htext⟩ := ih hinner
    exact ⟨backslash :: next :: consumed, .escaped next hreads, hleft, by rw [htext]; rfl⟩
  | case7 byte next rest hquote hbackslash ih =>
    intro read hread
    rw [scan_plain hquote hbackslash, Option.map_eq_some_iff] at hread
    obtain ⟨inner, hinner, rfl⟩ := hread
    obtain ⟨consumed, hreads, hleft, htext⟩ := ih hinner
    exact ⟨byte :: consumed, .plain hquote hbackslash hreads, hleft, by rw [htext]; rfl⟩

theorem length_unescape_le (next : UInt8) : (unescape next).length ≤ 2 := by
  unfold unescape
  split_ifs <;> simp

/-- A token yields no more bytes than it consumes. -/
theorem Reads.length_le {consumed value : List UInt8} (hreads : Reads quote consumed value) :
    value.length ≤ consumed.length := by
  induction hreads with
  | nil => exact Nat.le_refl _
  | plain _ _ _ ih => exact Nat.succ_le_succ ih
  | doubled _ ih =>
    simp only [List.length_cons]
    omega
  | escaped next _ ih =>
    have hnext := length_unescape_le next
    simp only [List.length_append, List.length_cons]
    omega

/-! ### Values that are read back -/

/-- A value that a literal can hold as it is: it does not contain the quote, and a backslash in it
only introduces one of the patterns `\%` and `\_`, which stand for themselves. -/
def Verbatim (quote : UInt8) : List UInt8 → Prop
  | [] => True
  | byte :: rest =>
    byte ≠ quote ∧ (byte = backslash → rest.head? = some 37 ∨ rest.head? = some 95) ∧
      Verbatim quote rest

instance decidableVerbatim (quote : UInt8) : (value : List UInt8) → Decidable (Verbatim quote value)
  | [] => inferInstanceAs (Decidable True)
  | _ :: rest =>
    haveI := decidableVerbatim quote rest
    inferInstanceAs (Decidable (_ ∧ _ ∧ _))

/-- The two kinds of quotes that open a literal. -/
def IsQuote (quote : UInt8) : Prop := quote = doubleQuote ∨ quote = singleQuote

theorem IsQuote.ne_backslash (hquote : IsQuote quote) : backslash ≠ quote := by
  rcases hquote with rfl | rfl <;> decide

theorem IsQuote.unescape (hquote : IsQuote quote) : unescape quote = [quote] := by
  rcases hquote with rfl | rfl <;> decide

theorem IsQuote.ne_pattern (hquote : IsQuote quote) :
    (37 : UInt8) ≠ quote ∧ (95 : UInt8) ≠ quote := by
  rcases hquote with rfl | rfl <;> decide

theorem unescape_of_pattern {next : UInt8} (hnext : next = 37 ∨ next = 95) :
    unescape next = [backslash, next] := by
  rcases hnext with rfl | rfl <;> rfl

/-- Only the two patterns keep their backslash. -/
theorem pattern_of_length_unescape {next : UInt8} (hlength : (unescape next).length = 2) :
    next = 37 ∨ next = 95 := by
  unfold unescape at hlength
  split_ifs at hlength with _ _ _ _ _ _ hpattern
  all_goals first | exact hpattern | cases hlength

/-- A verbatim value is read as itself. -/
theorem Verbatim.reads : ∀ {value : List UInt8}, Verbatim quote value → Reads quote value value
  | [], _ => .nil
  | [byte], hverbatim => by
    refine .plain hverbatim.1 (fun hbyte ↦ ?_) .nil
    rcases hverbatim.2.1 hbyte with hnone | hnone <;> cases hnone
  | byte :: next :: rest, hverbatim => by
    obtain ⟨hquote, hpattern, hnext⟩ := hverbatim
    by_cases hbyte : byte = backslash
    · have hstands : unescape next = [byte, next] := by
        rw [hbyte]
        exact unescape_of_pattern ((hpattern hbyte).imp Option.some.inj Option.some.inj)
      have hreads : Reads quote (backslash :: next :: rest) (unescape next ++ rest) :=
        .escaped next (Verbatim.reads hnext.2.2)
      rw [hstands, ← hbyte] at hreads
      exact hreads
    · exact .plain hquote hbyte (Verbatim.reads hnext)

/-- A text that is read without losing bytes is verbatim, and is read as itself. -/
theorem Reads.verbatim (hquote : IsQuote quote) {consumed value : List UInt8}
    (hreads : Reads quote consumed value) (hlength : consumed.length ≤ value.length) :
    Verbatim quote consumed ∧ value = consumed := by
  induction hreads with
  | nil => exact ⟨trivial, rfl⟩
  | plain hplain hbackslash _ ih =>
    obtain ⟨hverbatim, heq⟩ := ih (Nat.le_of_succ_le_succ hlength)
    exact ⟨⟨hplain, fun hbyte ↦ absurd hbyte hbackslash, hverbatim⟩, by rw [heq]⟩
  | doubled hreads _ =>
    have hle := hreads.length_le
    simp only [List.length_cons] at hlength
    omega
  | escaped next hreads ih =>
    have hle := hreads.length_le
    have htwo := length_unescape_le next
    simp only [List.length_append, List.length_cons] at hlength
    obtain ⟨hverbatim, heq⟩ := ih (by omega)
    have hpattern := pattern_of_length_unescape (by omega : (unescape next).length = 2)
    have hnext : next ≠ quote ∧ next ≠ backslash := by
      rcases hpattern with rfl | rfl
      · exact ⟨hquote.ne_pattern.1, by decide⟩
      · exact ⟨hquote.ne_pattern.2, by decide⟩
    refine ⟨⟨hquote.ne_backslash, fun _ ↦ hpattern.imp (congrArg some) (congrArg some), hnext.1,
      fun hbyte ↦ absurd hbyte hnext.2, hverbatim⟩, ?_⟩
    rw [heq, unescape_of_pattern hpattern]
    rfl

/-- A literal that is read past a quote followed by an ordinary byte contains both, and contains
them earlier than they were written. -/
theorem Reads.overrun (hquote : IsQuote quote) {byte : UInt8} (hplain : byte ≠ quote)
    (hbackslash : byte ≠ backslash) {consumed value : List UInt8}
    (hreads : Reads quote consumed value) :
    ∀ {before after : List UInt8}, consumed = before ++ quote :: byte :: after →
      ∃ front back, value = front ++ quote :: byte :: back ∧ front.length < before.length := by
  have hhead {after behind : List UInt8} (hrest : Reads quote (byte :: after) behind) :
      ∃ back, behind = byte :: back := by
    cases hrest with
    | plain => exact ⟨_, rfl⟩
    | doubled => exact absurd rfl hplain
    | escaped => exact absurd rfl hbackslash
  induction hreads with
  | nil =>
    intro before after hconsumed
    cases before <;> cases hconsumed
  | plain hne _ _ ih =>
    intro before after hconsumed
    rcases before with _ | ⟨first, before⟩
    · exact absurd (List.cons.inj hconsumed).1 hne
    · obtain ⟨front, back, rfl, hlt⟩ := ih (List.cons.inj hconsumed).2
      exact ⟨_ :: front, back, rfl, Nat.succ_lt_succ hlt⟩
  | doubled hreads ih =>
    intro before after hconsumed
    rcases before with _ | ⟨first, _ | ⟨second, before⟩⟩
    · exact absurd (List.cons.inj (List.cons.inj hconsumed).2).1.symm hplain
    · obtain rfl := (List.cons.inj (List.cons.inj hconsumed).2).2
      obtain ⟨back, rfl⟩ := hhead hreads
      exact ⟨[], back, rfl, Nat.zero_lt_one⟩
    · obtain ⟨front, back, rfl, hlt⟩ := ih (List.cons.inj (List.cons.inj hconsumed).2).2
      exact ⟨quote :: front, back, rfl, by simp only [List.length_cons]; omega⟩
  | escaped next hreads ih =>
    intro before after hconsumed
    rcases before with _ | ⟨first, _ | ⟨second, before⟩⟩
    · exact absurd (List.cons.inj hconsumed).1 hquote.ne_backslash
    · obtain ⟨rfl, rfl⟩ := List.cons.inj (List.cons.inj hconsumed).2
      obtain ⟨back, rfl⟩ := hhead hreads
      exact ⟨[], back, by rw [hquote.unescape]; rfl, Nat.zero_lt_one⟩
    · obtain ⟨front, back, rfl, hlt⟩ := ih (List.cons.inj (List.cons.inj hconsumed).2).2
      have htwo := length_unescape_le next
      refine ⟨unescape next ++ front, back, by simp, ?_⟩
      simp only [List.length_append, List.length_cons]
      omega

/-- A value that starts with what was written cannot have been read past its closing quote: every
overrun would put a pair of bytes into what was written that had to be overrun before. -/
theorem Reads.not_overrun (hquote : IsQuote quote) {byte : UInt8} (hplain : byte ≠ quote)
    (hbackslash : byte ≠ backslash) {written value after : List UInt8}
    (hreads : Reads quote (written ++ quote :: byte :: after) value) (hstart : written <+: value)
    (hnext : (value.drop written.length).head? ≠ some byte) : False := by
  have hdescent : ∀ bound, ∀ before behind : List UInt8, before.length = bound →
      written ++ quote :: byte :: after = before ++ quote :: byte :: behind →
      before.length ≤ written.length → False := by
    intro bound
    induction bound using Nat.strongRecOn with
    | _ bound ih =>
      intro before behind hbound hconsumed hle
      obtain ⟨front, back, rfl, hlt⟩ := hreads.overrun hquote hplain hbackslash hconsumed
      obtain ⟨rest, hrest⟩ := hstart
      have hsplit : written = front ++ written.drop front.length := by
        have htake := congrArg (List.take front.length) hrest
        rw [List.take_append_of_le_length (by omega), List.take_left] at htake
        conv_lhs => rw [← List.take_append_drop front.length written, htake]
      rw [hsplit, List.append_assoc, List.append_cancel_left_eq] at hrest
      rcases hlast : written.drop front.length with _ | ⟨first, _ | ⟨second, more⟩⟩
      · have hlength := congrArg List.length hlast
        rw [List.length_drop, List.length_nil] at hlength
        omega
      · -- what was written ends with the pair's quote, and the value goes on with its byte
        rw [hlast] at hrest
        obtain ⟨-, hbehind⟩ := List.cons.inj hrest
        apply hnext
        have hwritten : written.length = front.length + 1 := by
          conv_lhs => rw [hsplit, hlast, List.length_append]
          rfl
        rw [hwritten, ← List.drop_drop, List.drop_left]
        rfl
      · rw [hlast] at hrest
        obtain ⟨rfl, hbehind⟩ := List.cons.inj hrest
        obtain ⟨rfl, -⟩ := List.cons.inj hbehind
        rw [hlast] at hsplit
        exact ih front.length (by omega) front (more ++ first :: second :: after) rfl
          (by conv_lhs => rw [hsplit]
              simp) (by omega)
  exact hdescent _ written after rfl rfl (Nat.le_refl _)

/-- A literal that is read back as a continuation of what was written: what was written is
verbatim, is the whole value, and the literal ends at its closing quote. The text behind the quote
must not start with a byte that could continue the literal or the value. -/
theorem verbatim_of_scan (hquote : IsQuote quote) {written value rest left : List UInt8}
    (hstart : written <+: value)
    (hrest : ∀ byte, rest.head? = some byte →
      byte ≠ quote ∧ byte ≠ backslash ∧ (value.drop written.length).head? ≠ some byte)
    (hscan : scan quote (written ++ quote :: rest) = some (value, left)) :
    Verbatim quote written ∧ value = written ∧ left = rest := by
  obtain ⟨consumed, hreads, -, htext⟩ := reads_of_scan hscan
  have hle : value.length ≤ consumed.length := hreads.length_le
  have hwritten := hstart.length_le
  have hexact (hconsumed : consumed = written) :
      Verbatim quote written ∧ value = written ∧ left = rest := by
    subst hconsumed
    obtain ⟨hverbatim, hvalue⟩ := hreads.verbatim hquote hwritten
    exact ⟨hverbatim, hvalue, (List.cons.inj (List.append_cancel_left htext)).2.symm⟩
  rcases List.append_eq_append_iff.mp htext with ⟨more, hconsumed, hmore⟩ | ⟨more, hmore, -⟩
  · rcases more with _ | ⟨first, _ | ⟨byte, after⟩⟩
    · exact hexact (by simpa using hconsumed)
    · obtain ⟨-, hleft⟩ := List.cons.inj hmore
      exact absurd rfl (hrest quote (by rw [hleft]; rfl)).1
    · obtain ⟨rfl, hleft⟩ := List.cons.inj hmore
      obtain ⟨hplain, hbackslash, hnext⟩ := hrest byte (by rw [hleft]; rfl)
      rw [hconsumed] at hreads
      exact (hreads.not_overrun hquote hplain hbackslash hstart hnext).elim
  · have hlength := congrArg List.length hmore
    rw [List.length_append] at hlength
    have hnil : more = [] := List.eq_nil_of_length_eq_zero (by omega)
    exact hexact (by rw [hmore, hnil, List.append_nil])

/-! ### Whole statements -/

/-- A literal that is not closed leaves no statement. -/
theorem lex_unclosed (hquote : IsQuote quote) {text : List UInt8} (hscan : scan quote text = none) :
    lex (quote :: text) = none := by
  have hopen : quote = doubleQuote ∨ quote = singleQuote := hquote
  rw [lex, if_pos hopen]
  split
  · rfl
  · rename_i hsome
    rw [hscan] at hsome
    cases hsome

/-- Every pasted value is read back as the literal that ends at its own closing quote. -/
def Recovered : List Pasted → Prop
  | [] => True
  | pasted :: rest =>
    scan pasted.quote (pasted.written ++ pasted.quote :: paste pasted.piece rest) =
      some (pasted.value, paste pasted.piece rest) ∧ Recovered rest

/-- The pieces between the pasted values contain no quotes, and a literal that is read as its value
ends at its own closing quote. -/
def Anchored : List Pasted → Prop
  | [] => True
  | pasted :: rest =>
    IsQuote pasted.quote ∧ (doubleQuote ∉ pasted.piece ∧ singleQuote ∉ pasted.piece) ∧
      (∀ left, scan pasted.quote (pasted.written ++ pasted.quote :: paste pasted.piece rest) =
        some (pasted.value, left) → left = paste pasted.piece rest) ∧ Anchored rest

/-- A statement of anchored values is read as intended exactly when every value is recovered. -/
theorem lex_paste_eq_iff {head : List UInt8} (hdouble : doubleQuote ∉ head)
    (hsingle : singleQuote ∉ head) {entries : List Pasted} (hanchored : Anchored entries) :
    lex (paste head entries) =
        some ⟨head, entries.map fun pasted ↦ (pasted.value, pasted.piece)⟩ ↔
      Recovered entries := by
  induction entries generalizing head with
  | nil =>
    rw [paste, lex_piece hdouble hsingle, List.flatMap_nil, lex_nil]
    simp [Recovered]
  | cons pasted rest ih =>
    obtain ⟨hquote, ⟨hpieceDouble, hpieceSingle⟩, hend, hrest⟩ := hanchored
    have htext : paste head (pasted :: rest) =
        head ++ pasted.quote :: (pasted.written ++ pasted.quote :: paste pasted.piece rest) := by
      simp [paste, Pasted.text]
    rw [htext, lex_piece hdouble hsingle, Recovered]
    rcases hscan : scan pasted.quote
      (pasted.written ++ pasted.quote :: paste pasted.piece rest) with _ | ⟨value, left⟩
    · rw [lex_unclosed hquote hscan]
      exact iff_of_false (Option.some_ne_none _).symm fun hboth ↦
        absurd hboth.1 (Option.some_ne_none _).symm
    · rw [lex_literal hquote hscan]
      constructor
      · intro hlex
        simp only [Option.map_map, Option.map_eq_some_iff, Function.comp_apply,
          Statement.mk.injEq, List.append_nil, true_and, List.map_cons, List.cons.injEq,
          Prod.mk.injEq] at hlex
        obtain ⟨behind, hbehind, ⟨rfl, hpiece⟩, htail⟩ := hlex
        obtain rfl := hend left hscan
        refine ⟨rfl, (ih hpieceDouble hpieceSingle hrest).mp ?_⟩
        rw [hbehind, ← hpiece, ← htail]
      · rintro ⟨hvalue, hrecovered⟩
        obtain ⟨rfl, rfl⟩ := Prod.mk.inj (Option.some.inj hvalue)
        rw [(ih hpieceDouble hpieceSingle hrest).mpr hrecovered]
        simp

/-! ### Statements of values that are pasted as they are -/

/-- The number of bytes that literals take with the text behind each of them when they are written
as they are: each of them has two quotes. -/
def sizeOfEntries : List (List UInt8 × List UInt8) → ℕ
  | [] => 0
  | entry :: entries => entry.1.length + entry.2.length + 2 + sizeOfEntries entries

/-- The number of bytes that a statement takes when its literals are written as they are. -/
def Statement.size (statement : Statement) : ℕ :=
  statement.head.length + sizeOfEntries statement.tail

/-- A literal loses its closing quote, and nothing is added to it. -/
theorem size_le_of_scan {text value left : List UInt8}
    (hscan : scan quote text = some (value, left)) :
    value.length + left.length + 1 ≤ text.length := by
  obtain ⟨consumed, hreads, -, htext⟩ := reads_of_scan hscan
  have hle : value.length ≤ consumed.length := hreads.length_le
  have hleft : text = consumed ++ quote :: left := htext
  rw [hleft, List.length_append, List.length_cons]
  omega

/-- No statement is read from a text that is shorter than the statement. -/
theorem Statement.size_le_of_lex {text : List UInt8} {statement : Statement}
    (hlex : lex text = some statement) : statement.size ≤ text.length := by
  induction text using lex.induct generalizing statement with
  | case1 =>
    rw [lex_nil, Option.some.injEq] at hlex
    rw [← hlex]
    exact Nat.le_refl 0
  | case2 byte rest hquote hscan =>
    rw [lex_unclosed hquote hscan] at hlex
    cases hlex
  | case3 byte rest hquote read hscan ih =>
    rw [lex_literal hquote hscan, Option.map_eq_some_iff] at hlex
    obtain ⟨behind, hbehind, rfl⟩ := hlex
    have hread := size_le_of_scan hscan
    have hsize := ih hbehind
    simp only [Statement.size, sizeOfEntries, List.length_nil, List.length_cons] at hsize ⊢
    omega
  | case4 byte rest hplain ih =>
    rw [lex, if_neg hplain, Option.map_eq_some_iff] at hlex
    obtain ⟨behind, hbehind, rfl⟩ := hlex
    have hsize := ih hbehind
    simp only [Statement.size, List.length_cons] at hsize ⊢
    omega

/-- A value pasted as it is. -/
def Pasted.between (quote : UInt8) (entry : List UInt8 × List UInt8) : Pasted :=
  ⟨quote, entry.1, entry.1, entry.2⟩

/-- The text of a statement whose literals are pasted between quotes as they are. -/
def Statement.written (quote : UInt8) (statement : Statement) : List UInt8 :=
  paste statement.head (statement.tail.map (Pasted.between quote))

theorem Statement.length_written (statement : Statement) :
    (statement.written quote).length = statement.size := by
  obtain ⟨head, tail⟩ := statement
  simp only [written, paste, size, List.length_append, Nat.add_left_cancel_iff]
  induction tail with
  | nil => rfl
  | cons entry tail ih =>
    rw [List.map_cons, List.flatMap_cons, List.length_append, ih, sizeOfEntries]
    simp only [Pasted.text, Pasted.between, List.length_cons, List.length_append]
    omega

/-- A byte other than the quote is in the text when it is in the statement. -/
theorem Statement.mem_written {byte : UInt8} (hbyte : byte ≠ quote) {statement : Statement} :
    byte ∈ statement.written quote ↔
      byte ∈ statement.head ∨ ∃ entry ∈ statement.tail, byte ∈ entry.1 ∨ byte ∈ entry.2 := by
  simp [written, paste, List.mem_flatMap, Pasted.text, Pasted.between, hbyte]

/-- A text that keeps two literals apart: it has no quotes, is not empty, and does not start with a
backslash. -/
structure Separator (piece : List UInt8) : Prop where
  double : doubleQuote ∉ piece
  single : singleQuote ∉ piece
  ne_nil : piece ≠ []
  backslash : piece.head? ≠ some backslash

instance (piece : List UInt8) : Decidable (Separator piece) :=
  decidable_of_iff (doubleQuote ∉ piece ∧ singleQuote ∉ piece ∧ piece ≠ [] ∧
      piece.head? ≠ some backslash)
    ⟨fun hall ↦ ⟨hall.1, hall.2.1, hall.2.2.1, hall.2.2.2⟩,
      fun hpiece ↦ ⟨hpiece.double, hpiece.single, hpiece.ne_nil, hpiece.backslash⟩⟩

/-- In front of a separator, a value is read back exactly when it is verbatim, and its literal then
ends at its own closing quote. -/
theorem scan_between_iff (hquote : IsQuote quote) {piece : List UInt8} (hpiece : Separator piece)
    (rest : List Pasted) {value left : List UInt8} :
    scan quote (value ++ quote :: paste piece rest) = some (value, left) ↔
      Verbatim quote value ∧ left = paste piece rest := by
  obtain ⟨first, piece, rfl⟩ := List.exists_cons_of_ne_nil hpiece.ne_nil
  have hfirst : first ≠ quote := by
    rintro rfl
    rcases hquote with hdouble | hsingle
    · exact hpiece.double (hdouble ▸ List.mem_cons_self)
    · exact hpiece.single (hsingle ▸ List.mem_cons_self)
  constructor
  · intro hscan
    obtain ⟨hverbatim, -, hleft⟩ := verbatim_of_scan hquote (List.prefix_refl value)
      (fun byte hbyte ↦ by
        have heq : first = byte := Option.some.inj hbyte
        subst heq
        exact ⟨hfirst, fun hback ↦ hpiece.backslash (congrArg some hback), by simp⟩) hscan
    exact ⟨hverbatim, hleft⟩
  · rintro ⟨hverbatim, rfl⟩
    have hseparate : Separate quote (paste (first :: piece) rest) :=
      fun hhead ↦ hfirst (Option.some.inj hhead)
    exact hverbatim.reads.scan hquote.ne_backslash hseparate

theorem anchored_between (hquote : IsQuote quote) {tail : List (List UInt8 × List UInt8)}
    (hpieces : ∀ entry ∈ tail, Separator entry.2) :
    Anchored (tail.map (Pasted.between quote)) := by
  induction tail with
  | nil => exact trivial
  | cons entry tail ih =>
    have hpiece := hpieces entry List.mem_cons_self
    exact ⟨hquote, ⟨hpiece.double, hpiece.single⟩,
      fun _ hscan ↦ ((scan_between_iff hquote hpiece _).mp hscan).2,
      ih fun other hother ↦ hpieces other (.tail _ hother)⟩

theorem recovered_between_iff (hquote : IsQuote quote) {tail : List (List UInt8 × List UInt8)}
    (hpieces : ∀ entry ∈ tail, Separator entry.2) :
    Recovered (tail.map (Pasted.between quote)) ↔ ∀ entry ∈ tail, Verbatim quote entry.1 := by
  induction tail with
  | nil => simp [Recovered]
  | cons entry tail ih =>
    have hpiece := hpieces entry List.mem_cons_self
    rw [List.forall_mem_cons, ← ih fun other hother ↦ hpieces other (.tail _ hother)]
    exact and_congr_left fun _ ↦ (scan_between_iff hquote hpiece _).trans (and_iff_left rfl)

/-- What the text of a statement has to look like between its literals. -/
structure Statement.Separated (statement : Statement) : Prop where
  double : doubleQuote ∉ statement.head
  single : singleQuote ∉ statement.head
  pieces : ∀ entry ∈ statement.tail, Separator entry.2

/-- A statement that was written with its literals pasted as they are is read back exactly when all
of them are verbatim. -/
theorem Statement.lex_written_iff (hquote : IsQuote quote) {statement : Statement}
    (hseparated : statement.Separated) :
    lex (statement.written quote) = some statement ↔
      ∀ value ∈ statement.literals, Verbatim quote value := by
  have hstatement : statement = ⟨statement.head, (statement.tail.map (Pasted.between quote)).map
      fun pasted ↦ (pasted.value, pasted.piece)⟩ := by
    simp [Function.comp_def, Pasted.between]
  have hread := lex_paste_eq_iff hseparated.double hseparated.single
    (anchored_between hquote hseparated.pieces)
  rw [← hstatement, recovered_between_iff hquote hseparated.pieces] at hread
  refine hread.trans ?_
  simp only [literals, List.forall_mem_map]

end TradeServers.SqlLiteral
