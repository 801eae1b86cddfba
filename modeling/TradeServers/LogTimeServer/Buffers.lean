import TradeServers.LogTimeServer.Connection
import TradeServers.Library.BufferWrites

/-!
# The buffers of the statement texts

`mysqlInsert` builds its text in 200 bytes more than the content has, and `mysqlQuery` in 64 bytes.
`insertWrites` and `queryWrites` are all bytes that they write there. `buffers_hold_iff` says when
these stay inside: the slack of the first is used up by the header values and by the bytes of the
content that are escaped, and the second is too short for its own text.
-/

set_option autoImplicit false
set_option relaxedAutoImplicit false

namespace TradeServers.LogTimeServer

open SqlLiteral BufferWrites

/-! ### What is written -/

/-- The text that `mysqlInsert` formats in front of the content. -/
def insertHead (document : DocumentKey) : Bytes :=
  ascii "REPLACE INTO jsonServer(userName,`key`,side,content) VALUES (\"" ++
    cString document.userName ++ ascii "\",\"" ++ cString document.key ++ ascii "\",\"" ++
    cString document.side ++ ascii "\",'"

/-- The size of the buffer of `mysqlInsert`. -/
def insertCapacity (content : Bytes) : ℕ := content.length + 200

/-- What `mysqlInsert` writes to its buffer: `memset`, the formatted text, the escaped content, both
with a NUL behind them, and the end of the statement. -/
def insertWrites (escapeString : Bytes → Bytes) (document : DocumentKey) (content : Bytes) :
    List (Write UInt8) :=
  let start := (cString (insertHead document)).length
  let finish := start + (escapeString content).length
  [⟨0, List.replicate (insertCapacity content) 0⟩, ⟨0, insertHead document ++ [0]⟩,
    ⟨start, escapeString content ++ [0]⟩, ⟨finish, ascii "'"⟩, ⟨finish + 1, ascii ")"⟩]

/-- The size of the buffer of `mysqlQuery`. -/
def queryCapacity : ℕ := 64

/-- What `mysqlQuery` writes to its buffer: its initialisation, and the formatted text with a
NUL. -/
def queryWrites (document : DocumentKey) : List (Write UInt8) :=
  [⟨0, List.replicate queryCapacity 0⟩, ⟨0, queryText document ++ [0]⟩]

/-! ### The texts that are sent -/

theorem nul_not_mem_insertHead (document : DocumentKey) : 0 ∉ insertHead document := by
  have hopen :
      0 ∉ ascii "REPLACE INTO jsonServer(userName,`key`,side,content) VALUES (\"" := by
    decide +kernel
  have hnext : 0 ∉ ascii "\",\"" := by decide
  have hbody : 0 ∉ ascii "\",'" := by decide
  simp [insertHead, hopen, hnext, hbody, nul_not_mem_cString]

theorem cString_insertHead (document : DocumentKey) :
    cString (insertHead document) = insertHead document :=
  cString_eq_of_nul (nul_not_mem_insertHead document)

theorem insertText_eq (escapeString : Bytes → Bytes) (document : DocumentKey) (content : Bytes) :
    insertText escapeString document content =
      insertHead document ++ escapeString content ++ ascii "'" ++ ascii ")" := by
  have hclose : ascii "')" = ascii "'" ++ ascii ")" := rfl
  simp [insertText, insertHead, hclose]

/-- The writes leave the text of the statement at the start of the buffer. -/
theorem read_insertWrites (escapeString : Bytes → Bytes) (document : DocumentKey) (content : Bytes)
    (memory : ℕ → UInt8) :
    read (applyAll (insertWrites escapeString document content) memory)
        (insertText escapeString document content).length =
      insertText escapeString document content := by
  let front := insertHead document
  let escaped := escapeString content
  have hcontent := apply_apply 0 front [0] (escaped ++ [0]) (by simp)
  have hquote := apply_apply 0 (front ++ escaped) [0] (ascii "'") (by decide)
  have hparen := apply_apply 0 (front ++ escaped ++ ascii "'") [] (ascii ")") (by simp)
  have hfinish : (front ++ escaped ++ ascii "'").length = front.length + escaped.length + 1 := by
    rw [List.length_append, List.length_append]
    rfl
  rw [Nat.zero_add, ← List.append_assoc] at hcontent
  rw [Nat.zero_add, List.length_append] at hquote
  rw [Nat.zero_add, List.append_nil, hfinish] at hparen
  simp only [insertWrites, cString_insertHead, applyAll, List.foldl_cons, List.foldl_nil]
  rw [hcontent, hquote, hparen, ← insertText_eq, read_apply]

/-- Behind the formatted text of a query is its NUL. -/
theorem read_queryWrites (document : DocumentKey) (memory : ℕ → UInt8) :
    read (applyAll (queryWrites document) memory) (queryText document ++ [0]).length =
      queryText document ++ [0] :=
  read_apply _ _

/-- Where the buffer holds what is written, the statement is in it, and the memory behind it stays
as it was. -/
theorem insertWrites_of_within {escapeString : Bytes → Bytes} {document : DocumentKey}
    {content : Bytes} (hwithin : Within (insertCapacity content)
      (insertWrites escapeString document content)) (memory : ℕ → UInt8) :
    read (applyAll (insertWrites escapeString document content) memory)
        (insertText escapeString document content).length =
      insertText escapeString document content ∧
    ∀ index, insertCapacity content ≤ index →
      applyAll (insertWrites escapeString document content) memory index = memory index :=
  ⟨read_insertWrites escapeString document content memory,
    fun _ hindex ↦ applyAll_of_within hwithin hindex memory⟩

/-! ### Whether the buffers hold it -/

/-- The bytes that `mysql_real_escape_string` writes as two. -/
def needsEscape (byte : UInt8) : Bool :=
  [0, 10, 13, 26, backslash, singleQuote, doubleQuote].contains byte

theorem length_escapeByte (byte : UInt8) :
    (escapeByte byte).length = 1 + if needsEscape byte then 1 else 0 := by
  have hneeds : needsEscape byte = true ↔ byte = 0 ∨ byte = 10 ∨ byte = 13 ∨ byte = 26 ∨
      byte = backslash ∨ byte = singleQuote ∨ byte = doubleQuote := by
    simp [needsEscape]
  unfold escapeByte
  split_ifs <;> simp_all

theorem length_escape (content : Bytes) :
    (escape content).length = content.length + content.countP needsEscape := by
  induction content with
  | nil => rfl
  | cons byte content ih =>
    rw [escape, List.flatMap_cons, List.length_append, ← escape, ih, length_escapeByte,
      List.countP_cons, List.length_cons]
    omega

theorem length_insertHead (document : DocumentKey) : (insertHead document).length =
    71 + (cString document.userName).length + (cString document.key).length +
      (cString document.side).length := by
  have hopen : (ascii
      "REPLACE INTO jsonServer(userName,`key`,side,content) VALUES (\"").length = 62 := by
    decide +kernel
  have hnext : (ascii "\",\"").length = 3 := rfl
  have hbody : (ascii "\",'").length = 3 := rfl
  simp only [insertHead, List.length_append, hopen, hnext, hbody]
  omega

theorem length_queryText (document : DocumentKey) : (queryText document).length =
    76 + (cString document.userName).length + (cString document.key).length +
      (cString document.side).length := by
  have hopen : (ascii "SELECT content FROM  jsonServer where userName = \"").length = 50 := by
    decide +kernel
  have hkey : (ascii "\" AND `key`=\"").length = 13 := rfl
  have hside : (ascii "\" AND side=\"").length = 12 := rfl
  have hclose : (ascii "\"").length = 1 := rfl
  simp only [queryText, List.length_append, hopen, hkey, hside, hclose]
  omega

/-- The buffer of `mysqlInsert` holds what is written exactly when the header values, as C strings,
and the bytes of the content that are escaped are at most 127 in number. That of `mysqlQuery` never
does. -/
theorem buffers_hold_iff {escapeString : Bytes → Bytes}
    (hescape : ∀ content, (escapeString content).length =
      content.length + content.countP needsEscape)
    (document : DocumentKey) (content : Bytes) :
    (Within (insertCapacity content) (insertWrites escapeString document content) ↔
      (cString document.userName).length + (cString document.key).length +
        (cString document.side).length + content.countP needsEscape ≤ 127) ∧
    ¬ Within queryCapacity (queryWrites document) := by
  constructor
  · have hquote : (ascii "'").length = 1 := rfl
    have hparen : (ascii ")").length = 1 := rfl
    simp only [Within, insertWrites, insertCapacity, List.forall_mem_cons, Write.finish,
      List.length_replicate, List.length_append, List.length_singleton, cString_insertHead,
      length_insertHead, hescape, hquote, hparen, List.not_mem_nil]
    constructor
    · rintro ⟨-, -, -, -, hlast, -⟩
      omega
    · intro hroom
      exact ⟨by omega, by omega, by omega, by omega, by omega, fun _ hnone ↦ absurd hnone id⟩
  · intro hwithin
    have htext := hwithin ⟨0, queryText document ++ [0]⟩
      (List.mem_cons_of_mem _ (List.mem_singleton_self _))
    rw [Write.finish, List.length_append, length_queryText, queryCapacity] at htext
    omega

/-- A document without special bytes is held, whatever its length. -/
theorem buffers_hold_of_plain :
    Within (insertCapacity (ascii "[1,2,3]"))
      (insertWrites escape ⟨ascii "trader", ascii "k", ascii "1"⟩ (ascii "[1,2,3]")) :=
  (buffers_hold_iff length_escape ⟨ascii "trader", ascii "k", ascii "1"⟩ (ascii "[1,2,3]")).1.mpr
    (by decide)

/-- With 126 quotes in the content, and with any query, bytes are written behind the buffer. -/
theorem quotes_overrun :
    ¬ Within (insertCapacity (List.replicate 126 doubleQuote))
      (insertWrites escape ⟨ascii "u", ascii "k", ascii "1"⟩ (List.replicate 126 doubleQuote)) ∧
    ¬ Within queryCapacity (queryWrites ⟨ascii "u", ascii "k", ascii "1"⟩) := by
  constructor
  · intro hwithin
    have hlast := hwithin _ (List.getLast_mem (List.cons_ne_nil _ _))
    revert hlast
    decide +kernel
  · intro hwithin
    have hlast := hwithin _ (List.getLast_mem (List.cons_ne_nil _ _))
    revert hlast
    decide +kernel

end TradeServers.LogTimeServer
