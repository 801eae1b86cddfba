import TradeServers.Library.SqlFidelity
import TradeServers.LogTimeServer.Connection

/-!
# Which header values a statement carries faithfully

`MysqlConnection` escapes the content of a document but pastes the three header values as C strings
between double quotes. The server reads the intended statement out of such a text exactly when every
header value is `Legible` (`statements_faithful_iff`). Any other value ends its literal early, loses
bytes, or makes the literal run on into the statement.
-/

set_option autoImplicit false
set_option relaxedAutoImplicit false

namespace TradeServers.LogTimeServer

open SqlLiteral

/-! ### One header value -/

/-- A value that can be pasted as a C string between double quotes: it contains no NUL and no double
quote, and a backslash in it stands in front of `%` or `_`. -/
structure Legible (value : Bytes) : Prop where
  nul : 0 ∉ value
  verbatim : Verbatim doubleQuote value

instance (value : Bytes) : Decidable (Legible value) :=
  decidable_of_iff (0 ∉ value ∧ Verbatim doubleQuote value)
    ⟨fun hboth ↦ ⟨hboth.1, hboth.2⟩, fun hlegible ↦ ⟨hlegible.nul, hlegible.verbatim⟩⟩

/-- Behind the part of a value that a C string keeps, the value goes on with a NUL if at all. -/
theorem head_drop_cString {value : Bytes} {byte : UInt8}
    (hhead : (value.drop (cString value).length).head? = some byte) : byte = 0 := by
  induction value with
  | nil => cases hhead
  | cons first rest ih =>
    unfold cString at hhead ih
    by_cases hfirst : first = 0
    · rw [List.takeWhile_cons_of_neg (by simpa using hfirst)] at hhead
      exact (Option.some.inj hhead).symm.trans hfirst
    · rw [List.takeWhile_cons_of_pos (by simpa using hfirst)] at hhead
      exact ih hhead

/-- A text that neither continues a literal that is closed in front of it, nor could be taken for
the rest of a value. -/
def Ordinary (text : Bytes) : Prop :=
  ∀ byte, text.head? = some byte → byte ≠ doubleQuote ∧ byte ≠ backslash ∧ byte ≠ 0

/-- A header value is read back exactly when it is legible, and its literal then ends at its own
closing quote. -/
theorem scan_cString_iff {value rest left : Bytes} (hrest : Ordinary rest) :
    scan doubleQuote (cString value ++ doubleQuote :: rest) = some (value, left) ↔
      Legible value ∧ left = rest := by
  constructor
  · intro hscan
    obtain ⟨hverbatim, hvalue, hleft⟩ := verbatim_of_scan (.inl rfl) (List.takeWhile_prefix _)
      (fun byte hbyte ↦ ⟨(hrest byte hbyte).1, (hrest byte hbyte).2.1,
        fun hhead ↦ (hrest byte hbyte).2.2 (head_drop_cString hhead)⟩) hscan
    have hnul : 0 ∉ cString value := by
      intro hmem
      simpa using List.mem_takeWhile_imp hmem
    rw [hvalue]
    exact ⟨⟨hnul, hverbatim⟩, hleft⟩
  · rintro ⟨hlegible, rfl⟩
    have hseparate : Separate doubleQuote left := fun hhead ↦ (hrest doubleQuote hhead).1 rfl
    rw [cString_eq_of_nul hlegible.nul]
    exact hlegible.verbatim.reads.scan (by decide) hseparate

/-! ### The statements -/

/-- Every column of a document key is legible. -/
structure DocumentKey.Legible (document : DocumentKey) : Prop where
  userName : LogTimeServer.Legible document.userName
  key : LogTimeServer.Legible document.key
  side : LogTimeServer.Legible document.side

/-- A header value as the statements paste it. -/
def pastedValue (value piece : Bytes) : Pasted := ⟨doubleQuote, cString value, value, piece⟩

/-- The body of a document as `mysqlInsert` pastes it. -/
def pastedContent {σ : Type} (server : MysqlServer σ) (content : Bytes) : Pasted :=
  ⟨singleQuote, server.escapeString content, content, ascii ")"⟩

theorem anchored_pastedValue {value piece : Bytes} {rest : List Pasted} (hpiece : Unquoted piece)
    (hordinary : Ordinary (paste piece rest)) (hrest : Anchored rest) :
    Anchored (pastedValue value piece :: rest) :=
  ⟨.inl rfl, ⟨hpiece.double, hpiece.single⟩,
    fun _ hscan ↦ ((scan_cString_iff hordinary).mp hscan).2, hrest⟩

theorem recovered_pastedValue_iff {value piece : Bytes} {rest : List Pasted}
    (hordinary : Ordinary (paste piece rest)) :
    Recovered (pastedValue value piece :: rest) ↔ Legible value ∧ Recovered rest :=
  and_congr ((scan_cString_iff hordinary).trans (and_iff_left rfl)) Iff.rfl

/-- A text is ordinary when the piece it starts with does. -/
theorem ordinary_paste {first : UInt8} {piece : Bytes} (rest : List Pasted)
    (hfirst : first ≠ doubleQuote ∧ first ≠ backslash ∧ first ≠ 0) :
    Ordinary (paste (first :: piece) rest) := by
  intro byte hbyte
  have heq : first = byte := Option.some.inj hbyte
  rw [← heq]
  exact hfirst

section Statements

variable {σ : Type} (server : MysqlServer σ) (document : DocumentKey) (content : Bytes)

theorem recovered_pastedContent : Recovered [pastedContent server content] :=
  ⟨server.scan_escapeString content _ (by decide : Separate singleQuote (ascii ")")), trivial⟩

theorem anchored_pastedContent : Anchored [pastedContent server content] := by
  have hpiece : Unquoted (ascii ")") := by decide
  refine ⟨.inr rfl, ⟨hpiece.double, hpiece.single⟩, fun left hscan ↦ ?_, trivial⟩
  have hread := (recovered_pastedContent server content).1
  rw [hread] at hscan
  exact (Prod.mk.inj (Option.some.inj hscan)).2.symm

theorem insertText_eq_paste :
    insertText server.escapeString document content =
      paste (ascii "REPLACE INTO jsonServer(userName,`key`,side,content) VALUES (")
        [pastedValue document.userName (ascii ","), pastedValue document.key (ascii ","),
          pastedValue document.side (ascii ","), pastedContent server content] := by
  have hopen : ascii "REPLACE INTO jsonServer(userName,`key`,side,content) VALUES (\"" =
      ascii "REPLACE INTO jsonServer(userName,`key`,side,content) VALUES (" ++ [doubleQuote] := by
    decide +kernel
  have hnext : ascii "\",\"" = doubleQuote :: (ascii "," ++ [doubleQuote]) := rfl
  have hbody : ascii "\",'" = doubleQuote :: (ascii "," ++ [singleQuote]) := rfl
  have hclose : ascii "')" = singleQuote :: ascii ")" := rfl
  rw [insertText, hopen, hnext, hbody, hclose]
  simp [paste, Pasted.text, pastedValue, pastedContent]

theorem queryText_eq_paste :
    queryText document =
      paste (ascii "SELECT content FROM  jsonServer where userName = ")
        [pastedValue document.userName (ascii " AND `key`="),
          pastedValue document.key (ascii " AND side="), pastedValue document.side []] := by
  have hopen : ascii "SELECT content FROM  jsonServer where userName = \"" =
      ascii "SELECT content FROM  jsonServer where userName = " ++ [doubleQuote] := by
    decide +kernel
  have hkey : ascii "\" AND `key`=\"" =
      doubleQuote :: (ascii " AND `key`=" ++ [doubleQuote]) := rfl
  have hside : ascii "\" AND side=\"" =
      doubleQuote :: (ascii " AND side=" ++ [doubleQuote]) := rfl
  have hclose : ascii "\"" = [doubleQuote] := rfl
  rw [queryText, hopen, hkey, hside, hclose]
  simp [paste, Pasted.text, pastedValue]

theorem lex_insertText_eq_iff :
    lex (insertText server.escapeString document content) =
        some (replaceStatement document content) ↔
      document.Legible := by
  have hhead :
      Unquoted (ascii "REPLACE INTO jsonServer(userName,`key`,side,content) VALUES (") := by
    decide +kernel
  have hcomma : Unquoted (ascii ",") := by decide
  have hordinary (rest : List Pasted) : Ordinary (paste (ascii ",") rest) :=
    ordinary_paste rest (by decide)
  have hanchored : Anchored [pastedValue document.userName (ascii ","),
      pastedValue document.key (ascii ","), pastedValue document.side (ascii ","),
      pastedContent server content] :=
    anchored_pastedValue hcomma (hordinary _) (anchored_pastedValue hcomma (hordinary _)
      (anchored_pastedValue hcomma (hordinary _) (anchored_pastedContent server content)))
  rw [insertText_eq_paste]
  refine (lex_paste_eq_iff hhead.double hhead.single hanchored).trans ?_
  rw [recovered_pastedValue_iff (hordinary _), recovered_pastedValue_iff (hordinary _),
    recovered_pastedValue_iff (hordinary _)]
  exact ⟨fun hall ↦ ⟨hall.1, hall.2.1, hall.2.2.1⟩, fun hlegible ↦
    ⟨hlegible.userName, hlegible.key, hlegible.side, recovered_pastedContent server content⟩⟩

theorem lex_queryText_eq_iff :
    lex (queryText document) = some (selectStatement document) ↔ document.Legible := by
  have hhead : Unquoted (ascii "SELECT content FROM  jsonServer where userName = ") := by
    decide +kernel
  have hkey : Unquoted (ascii " AND `key`=") := by decide
  have hside : Unquoted (ascii " AND side=") := by decide
  have hnil : Unquoted [] := by decide
  have hkeyOrdinary (rest : List Pasted) : Ordinary (paste (ascii " AND `key`=") rest) :=
    ordinary_paste rest (by decide)
  have hsideOrdinary (rest : List Pasted) : Ordinary (paste (ascii " AND side=") rest) :=
    ordinary_paste rest (by decide)
  have hend : Ordinary (paste [] []) := fun _ hhead ↦ nomatch hhead
  have hanchored : Anchored [pastedValue document.userName (ascii " AND `key`="),
      pastedValue document.key (ascii " AND side="), pastedValue document.side []] :=
    anchored_pastedValue hkey (hkeyOrdinary _) (anchored_pastedValue hside (hsideOrdinary _)
      (anchored_pastedValue hnil hend trivial))
  rw [queryText_eq_paste]
  refine (lex_paste_eq_iff hhead.double hhead.single hanchored).trans ?_
  rw [recovered_pastedValue_iff (hkeyOrdinary _), recovered_pastedValue_iff (hsideOrdinary _),
    recovered_pastedValue_iff hend]
  exact ⟨fun hall ↦ ⟨hall.1, hall.2.1, hall.2.2.1⟩, fun hlegible ↦
    ⟨hlegible.userName, hlegible.key, hlegible.side, trivial⟩⟩

/-- The server reads the two statements of a document as they were meant, with its header values and
its content as their literals, exactly when the header values are legible. -/
theorem statements_faithful_iff :
    (lex (insertText server.escapeString document content) =
        some (replaceStatement document content) ↔ document.Legible) ∧
      (lex (queryText document) = some (selectStatement document) ↔ document.Legible) :=
  ⟨lex_insertText_eq_iff server document content, lex_queryText_eq_iff document⟩

end Statements

/-- A user name that ends its literal and completes the condition. -/
def injected : DocumentKey := ⟨ascii "x\" OR \"a\"=\"a", ascii "2024", ascii "B"⟩

/-- With this user name neither text is read as the statement it was meant to be. The comparison of
the query becomes one with `"x"`, and a condition that always holds stands behind it. -/
theorem injected_changes_statements :
    injected.userName.length ≤ 32 ∧ injected.key.length ≤ 4 ∧ injected.side.length = 1 ∧
      lex (insertText MysqlServer.ofTable.escapeString injected [31]) ≠
        some (replaceStatement injected [31]) ∧
      (lex (queryText injected)).map Statement.literals =
        some [ascii "x", ascii "a", ascii "a", ascii "2024", ascii "B"] := by
  have hillegible : ¬ Legible injected.userName := by decide
  refine ⟨by decide, by decide, by decide, fun hlex ↦ ?_, by decide +kernel⟩
  exact hillegible ((lex_insertText_eq_iff .ofTable injected [31]).mp hlex).userName

end TradeServers.LogTimeServer
