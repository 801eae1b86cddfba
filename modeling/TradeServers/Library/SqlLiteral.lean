import Mathlib.Data.List.Basic

/-!
# String literals in statement texts

A client that builds statements by pasting values between quotes hands the server a text, and the
server's lexer decides where the values end. `scan` reads one literal by MySQL's rules in the
default mode: a backslash escapes the next byte, a doubled quote stands for one, and the quote
closes the literal. `lex` reads a whole text into a `Statement`: the text outside the literals, cut
where a literal stands, and the values of the literals.

`scan_clean` is the rule for values that are pasted as they are: they must contain neither their
quote nor a backslash. `scan_escape` is the rule for escaped values, and `lex_paste` assembles a
whole statement from such rules.
-/

set_option autoImplicit false
set_option relaxedAutoImplicit false

namespace TradeServers.SqlLiteral

/-- The double quote. -/
def doubleQuote : UInt8 := 34

/-- The single quote. -/
def singleQuote : UInt8 := 39

/-- The backslash. -/
def backslash : UInt8 := 92

/-! ### One literal -/

/-- What a backslash and the byte behind it stand for. -/
def unescape (byte : UInt8) : List UInt8 :=
  if byte = 48 then [0]                     -- `\0`
  else if byte = 98 then [8]                -- `\b`
  else if byte = 110 then [10]              -- `\n`
  else if byte = 114 then [13]              -- `\r`
  else if byte = 116 then [9]               -- `\t`
  else if byte = 90 then [26]               -- `\Z`
  else if byte = 37 ∨ byte = 95 then [backslash, byte]  -- the patterns `\%` and `\_`
  else [byte]

/-- The value of the literal that was opened by `quote`, and the text behind it. There is none when
the literal is not closed. -/
def scan (quote : UInt8) : List UInt8 → Option (List UInt8 × List UInt8)
  | [] => none
  | [byte] => if byte = quote then some ([], []) else none
  | byte :: next :: rest =>
    if byte = quote then
      if next = quote then (scan quote rest).map fun read ↦ (quote :: read.1, read.2)
      else some ([], next :: rest)
    else if byte = backslash then
      (scan quote rest).map fun read ↦ (unescape next ++ read.1, read.2)
    else (scan quote (next :: rest)).map fun read ↦ (byte :: read.1, read.2)

/-- A text that does not continue a literal closed in front of it. -/
def Separate (quote : UInt8) (text : List UInt8) : Prop := text.head? ≠ some quote

instance (quote : UInt8) (text : List UInt8) : Decidable (Separate quote text) :=
  inferInstanceAs (Decidable (_ ≠ _))

theorem scan_close {quote : UInt8} {rest : List UInt8} (hrest : Separate quote rest) :
    scan quote (quote :: rest) = some ([], rest) := by
  cases rest with
  | nil => rw [scan, if_pos rfl]
  | cons next rest =>
    have hne : next ≠ quote := fun heq ↦ hrest (congrArg some heq)
    rw [scan, if_pos rfl, if_neg hne]

theorem scan_plain {quote byte : UInt8} (hquote : byte ≠ quote) (hbackslash : byte ≠ backslash)
    (text : List UInt8) :
    scan quote (byte :: text) = (scan quote text).map fun read ↦ (byte :: read.1, read.2) := by
  cases text with
  | nil => simp [scan, hquote]
  | cons next rest => rw [scan, if_neg hquote, if_neg hbackslash]

theorem scan_escaped {quote : UInt8} (hquote : backslash ≠ quote) (next : UInt8)
    (text : List UInt8) :
    scan quote (backslash :: next :: text) =
      (scan quote text).map fun read ↦ (unescape next ++ read.1, read.2) := by
  rw [scan, if_neg hquote, if_pos rfl]

/-- A value that a literal can hold as it is: it contains neither the quote nor a backslash. -/
structure Clean (quote : UInt8) (value : List UInt8) : Prop where
  quote : quote ∉ value
  backslash : backslash ∉ value

/-- A clean value between quotes is read back as it is. -/
theorem scan_clean {quote : UInt8} {value : List UInt8} (hclean : Clean quote value)
    {rest : List UInt8} (hrest : Separate quote rest) :
    scan quote (value ++ quote :: rest) = some (value, rest) := by
  induction value with
  | nil => exact scan_close hrest
  | cons byte value ih =>
    obtain ⟨hquote, hbackslash⟩ := hclean
    rw [List.mem_cons, not_or] at hquote hbackslash
    rw [List.cons_append, scan_plain (Ne.symm hquote.1) (Ne.symm hbackslash.1),
      ih ⟨hquote.2, hbackslash.2⟩]
    rfl

/-! ### Escaping -/

/-- The escape sequence of a byte that must not stand in a literal as it is: NUL, line feed,
carriage return, backslash, the quotes, and Control-Z. -/
def escapeByte (byte : UInt8) : List UInt8 :=
  if byte = 0 then [backslash, 48]
  else if byte = 10 then [backslash, 110]
  else if byte = 13 then [backslash, 114]
  else if byte = 26 then [backslash, 90]
  else if byte = backslash ∨ byte = singleQuote ∨ byte = doubleQuote then [backslash, byte]
  else [byte]

/-- A text that can be pasted between either kind of quotes. -/
def escape (value : List UInt8) : List UInt8 := value.flatMap escapeByte

/-- Every byte is either escaped to two bytes that stand for it, or passes as it is. -/
theorem escapeByte_cases (byte : UInt8) :
    (∃ next, escapeByte byte = [backslash, next] ∧ unescape next = [byte]) ∨
      escapeByte byte = [byte] ∧ byte ≠ backslash ∧ byte ≠ singleQuote ∧ byte ≠ doubleQuote := by
  unfold escapeByte
  split_ifs with hnul hfeed hreturn hcontrol hspecial
  · exact .inl ⟨48, rfl, by rw [hnul]; rfl⟩
  · exact .inl ⟨110, rfl, by rw [hfeed]; rfl⟩
  · exact .inl ⟨114, rfl, by rw [hreturn]; rfl⟩
  · exact .inl ⟨90, rfl, by rw [hcontrol]; rfl⟩
  · refine .inl ⟨byte, rfl, ?_⟩
    rcases hspecial with rfl | rfl | rfl <;> rfl
  · rw [not_or, not_or] at hspecial
    exact .inr ⟨rfl, hspecial⟩

/-- An escaped value between quotes is read back as the value. -/
theorem scan_escape {quote : UInt8} (hquote : quote = singleQuote ∨ quote = doubleQuote)
    (value : List UInt8) {rest : List UInt8} (hrest : Separate quote rest) :
    scan quote (escape value ++ quote :: rest) = some (value, rest) := by
  have hbackslash : backslash ≠ quote := by
    rcases hquote with rfl | rfl <;> decide
  induction value with
  | nil => exact scan_close hrest
  | cons byte value ih =>
    have hescape : escape (byte :: value) ++ quote :: rest =
        escapeByte byte ++ (escape value ++ quote :: rest) := by
      simp [escape]
    rw [hescape]
    rcases escapeByte_cases byte with ⟨next, hpair, hunescape⟩ | ⟨hself, hplain⟩
    · rw [hpair, List.cons_append, List.singleton_append, scan_escaped hbackslash, ih, hunescape]
      rfl
    · have hne : byte ≠ quote := by
        rcases hquote with rfl | rfl
        · exact hplain.2.1
        · exact hplain.2.2
      rw [hself, List.singleton_append, scan_plain hne hplain.1, ih]
      rfl

/-! ### Statements -/

/-- A statement as its lexer sees it: the text in front of the first literal, then every literal's
value with the text that follows it. -/
@[ext]
structure Statement where
  head : List UInt8
  tail : List (List UInt8 × List UInt8)
deriving DecidableEq

/-- The values of the literals of a statement, in order. -/
def Statement.literals (statement : Statement) : List (List UInt8) :=
  statement.tail.map Prod.fst

/-- Reading a literal consumes text. -/
theorem length_lt_of_scan {quote : UInt8} {text : List UInt8} :
    ∀ {read : List UInt8 × List UInt8}, scan quote text = some read →
      read.2.length < text.length := by
  induction text using scan.induct quote with
  | case1 => exact fun hread ↦ nomatch hread
  | case2 =>
    intro read hread
    rw [scan, if_pos rfl, Option.some.injEq] at hread
    rw [← hread]
    exact Nat.zero_lt_one
  | case3 byte hne =>
    intro read hread
    rw [scan, if_neg hne] at hread
    cases hread
  | case4 rest ih =>
    intro read hread
    rw [scan, if_pos rfl, if_pos rfl, Option.map_eq_some_iff] at hread
    obtain ⟨inner, hinner, rfl⟩ := hread
    have hshorter := ih hinner
    simp only [List.length_cons] at hshorter ⊢
    omega
  | case5 next rest hne =>
    intro read hread
    rw [scan, if_pos rfl, if_neg hne, Option.some.injEq] at hread
    rw [← hread]
    exact Nat.lt_succ_self _
  | case6 next rest hquote ih =>
    intro read hread
    rw [scan, if_neg hquote, if_pos rfl, Option.map_eq_some_iff] at hread
    obtain ⟨inner, hinner, rfl⟩ := hread
    have hshorter := ih hinner
    simp only [List.length_cons] at hshorter ⊢
    omega
  | case7 byte next rest hquote hbackslash ih =>
    intro read hread
    rw [scan, if_neg hquote, if_neg hbackslash, Option.map_eq_some_iff] at hread
    obtain ⟨inner, hinner, rfl⟩ := hread
    have hshorter := ih hinner
    simp only [List.length_cons] at hshorter ⊢
    omega

/-- The lexer reads a statement text; a text with an unclosed literal is none. -/
def lex : List UInt8 → Option Statement
  | [] => some ⟨[], []⟩
  | byte :: rest =>
    if byte = doubleQuote ∨ byte = singleQuote then
      match _hscan : scan byte rest with
      | none => none
      | some read => (lex read.2).map fun behind ↦ ⟨[], (read.1, behind.head) :: behind.tail⟩
    else (lex rest).map fun behind ↦ ⟨byte :: behind.head, behind.tail⟩
termination_by text => text.length
decreasing_by
  · exact Nat.lt_trans (length_lt_of_scan _hscan) (Nat.lt_succ_self _)
  · exact Nat.lt_succ_self _

theorem lex_nil : lex [] = some ⟨[], []⟩ := by
  rw [lex]

/-- Text without quotes goes to the head of the statement. -/
theorem lex_piece {piece : List UInt8} (hdouble : doubleQuote ∉ piece)
    (hsingle : singleQuote ∉ piece) (text : List UInt8) :
    lex (piece ++ text) = (lex text).map fun behind ↦ ⟨piece ++ behind.head, behind.tail⟩ := by
  induction piece with
  | nil => simp
  | cons byte piece ih =>
    rw [List.mem_cons, not_or] at hdouble hsingle
    have hplain : ¬ (byte = doubleQuote ∨ byte = singleQuote) :=
      not_or.mpr ⟨Ne.symm hdouble.1, Ne.symm hsingle.1⟩
    rw [List.cons_append, lex, if_neg hplain, ih hdouble.2 hsingle.2, Option.map_map]
    rfl

/-- A literal that is read becomes the next literal of the statement. -/
theorem lex_literal {quote : UInt8} (hquote : quote = doubleQuote ∨ quote = singleQuote)
    {text value rest : List UInt8} (hscan : scan quote text = some (value, rest)) :
    lex (quote :: text) =
      (lex rest).map fun behind ↦ ⟨[], (value, behind.head) :: behind.tail⟩ := by
  rw [lex, if_pos hquote]
  split
  · rename_i hnone
    rw [hscan] at hnone
    cases hnone
  · rename_i read hsome
    rw [hscan, Option.some.injEq] at hsome
    rw [← hsome]

/-! ### Pasted values -/

/-- A value pasted into a statement text: the quotes around it, what is written between them, the
value this stands for, and the text that follows. -/
structure Pasted where
  quote : UInt8
  written : List UInt8
  value : List UInt8
  piece : List UInt8

/-- A value pasted between double quotes as it is. -/
def Pasted.plain (value piece : List UInt8) : Pasted := ⟨doubleQuote, value, value, piece⟩

/-- The text that a pasted value and its piece contribute. -/
def Pasted.text (pasted : Pasted) : List UInt8 :=
  pasted.quote :: (pasted.written ++ pasted.quote :: pasted.piece)

/-- What is written is read back as the value, and the piece contains no quotes. -/
structure Pasted.Faithful (pasted : Pasted) : Prop where
  quote : pasted.quote = doubleQuote ∨ pasted.quote = singleQuote
  double : doubleQuote ∉ pasted.piece
  single : singleQuote ∉ pasted.piece
  scan : ∀ rest, Separate pasted.quote rest →
    scan pasted.quote (pasted.written ++ pasted.quote :: rest) = some (pasted.value, rest)

theorem Pasted.plain_faithful {value piece : List UInt8} (hclean : Clean doubleQuote value)
    (hdouble : doubleQuote ∉ piece) (hsingle : singleQuote ∉ piece) :
    (Pasted.plain value piece).Faithful :=
  ⟨.inl rfl, hdouble, hsingle, fun _ hrest ↦ scan_clean hclean hrest⟩

/-- Every pasted value is faithful, and only the last may have nothing behind it. -/
def Faithful : List Pasted → Prop
  | [] => True
  | pasted :: rest => pasted.Faithful ∧ (pasted.piece = [] → rest = []) ∧ Faithful rest

/-- The statement text of a head and the values pasted behind it. -/
def paste (head : List UInt8) (entries : List Pasted) : List UInt8 :=
  head ++ entries.flatMap Pasted.text

/-- A pasted value is separate from the text behind it. -/
theorem separate_of_faithful {pasted : Pasted} {rest : List Pasted}
    (hfaithful : Faithful (pasted :: rest)) :
    Separate pasted.quote (paste pasted.piece rest) := by
  obtain ⟨hpasted, hlast, -⟩ := hfaithful
  rw [paste]
  cases hpiece : pasted.piece with
  | nil =>
    rw [hlast hpiece]
    exact (Option.some_ne_none _).symm
  | cons byte piece =>
    have hmem : byte ∈ pasted.piece := hpiece ▸ List.mem_cons_self
    intro hhead
    have hbyte : byte = pasted.quote := Option.some.inj hhead
    rcases hpasted.quote with hquote | hquote
    · exact hpasted.double (hbyte.trans hquote ▸ hmem)
    · exact hpasted.single (hbyte.trans hquote ▸ hmem)

/-- The literals of a faithfully pasted statement are its values. -/
theorem lex_paste {head : List UInt8} (hdouble : doubleQuote ∉ head) (hsingle : singleQuote ∉ head)
    {entries : List Pasted} (hfaithful : Faithful entries) :
    lex (paste head entries) =
      some ⟨head, entries.map fun pasted ↦ (pasted.value, pasted.piece)⟩ := by
  induction entries generalizing head with
  | nil =>
    rw [paste, lex_piece hdouble hsingle, List.flatMap_nil, lex_nil]
    simp
  | cons pasted rest ih =>
    have hseparate := separate_of_faithful hfaithful
    obtain ⟨hpasted, -, hrest⟩ := hfaithful
    have htext : paste head (pasted :: rest) =
        head ++ pasted.quote :: (pasted.written ++ pasted.quote :: paste pasted.piece rest) := by
      simp [paste, Pasted.text]
    rw [htext, lex_piece hdouble hsingle, lex_literal hpasted.quote (hpasted.scan _ hseparate),
      ih hpasted.double hpasted.single hrest]
    simp

end TradeServers.SqlLiteral
