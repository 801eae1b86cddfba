import TradeServers.StatementText
import Mathlib.Logic.Function.Basic

/-!
# The statements of a MySQL connection

`MysqlConnection::mysqlInsert` and `MysqlConnection::mysqlQuery` paste header values between double
quotes, as C strings and unescaped, and the body between single quotes, escaped. MySQL itself is a
parameter: `MysqlServer` is a server that does to the table `jsonServer` what the statements of the
two intended shapes say. Nothing is assumed about texts of any other shape.
-/

set_option autoImplicit false
set_option relaxedAutoImplicit false

namespace TradeServers.LogTimeServer

open SqlLiteral

/-! ### MySQL -/

/-- The columns that key the table `jsonServer`. -/
@[ext]
structure DocumentKey where
  userName : Bytes
  key : Bytes
  side : Bytes
deriving DecidableEq

/-- `REPLACE INTO` with the four literals of a document. -/
def replaceStatement (document : DocumentKey) (content : Bytes) : Statement where
  head := ascii "REPLACE INTO jsonServer(userName,`key`,side,content) VALUES ("
  tail := [(document.userName, ascii ","), (document.key, ascii ","),
    (document.side, ascii ","), (content, ascii ")")]

/-- `SELECT` of the content under three literals. -/
def selectStatement (document : DocumentKey) : Statement where
  head := ascii "SELECT content FROM  jsonServer where userName = "
  tail := [(document.userName, ascii " AND `key`="), (document.key, ascii " AND side="),
    (document.side, [])]

/-- What the connection relies on of libmysql and of the server behind it. `realQuery` is the
effect of a statement that the server accepts, with the column `content` of its result rows, and
`content` is the table. The table is keyed by the three columns: `REPLACE` overwrites the row with
its key, `SELECT` reads it and changes nothing. -/
structure MysqlServer (σ : Type) where
  escapeString : Bytes → Bytes
  realQuery : σ → Bytes → σ × List Bytes
  content : σ → DocumentKey → Option Bytes
  scan_escapeString : ∀ value rest, Separate singleQuote rest →
    scan singleQuote (escapeString value ++ singleQuote :: rest) = some (value, rest)
  replace : ∀ db text document body, lex text = some (replaceStatement document body) →
    content (realQuery db text).1 = Function.update (content db) document (some body)
  select : ∀ db text document, lex text = some (selectStatement document) →
    content (realQuery db text).1 = content db ∧
      (realQuery db text).2 = (content db document).toList

/-- A server whose state is its table. -/
def MysqlServer.ofTable : MysqlServer (DocumentKey → Option Bytes) where
  escapeString := escape
  realQuery := fun table text ↦
    match lex text with
    | some ⟨head, [(userName, _), (key, _), (side, _), (body, _)]⟩ =>
      if head = (replaceStatement ⟨[], [], []⟩ []).head then
        (Function.update table ⟨userName, key, side⟩ (some body), [])
      else (table, [])
    | some ⟨head, [(userName, _), (key, _), (side, _)]⟩ =>
      if head = (selectStatement ⟨[], [], []⟩).head then
        (table, (table ⟨userName, key, side⟩).toList)
      else (table, [])
    | _ => (table, [])
  content := id
  scan_escapeString := fun value _ hrest ↦ scan_escape (.inl rfl) value hrest
  replace := by
    intro table text document body hlex
    rw [hlex]
    rfl
  select := by
    intro table text document hlex
    rw [hlex]
    exact ⟨rfl, rfl⟩

/-! ### The statement texts -/

/-- The text that `mysqlInsert` sends. -/
def insertText (escapeString : Bytes → Bytes) (document : DocumentKey) (content : Bytes) : Bytes :=
  ascii "REPLACE INTO jsonServer(userName,`key`,side,content) VALUES (\"" ++
    cString document.userName ++ ascii "\",\"" ++ cString document.key ++ ascii "\",\"" ++
    cString document.side ++ ascii "\",'" ++ escapeString content ++ ascii "')"

/-- The text that `mysqlQuery` sends. -/
def queryText (document : DocumentKey) : Bytes :=
  ascii "SELECT content FROM  jsonServer where userName = \"" ++ cString document.userName ++
    ascii "\" AND `key`=\"" ++ cString document.key ++ ascii "\" AND side=\"" ++
    cString document.side ++ ascii "\""

/-- Every column of a document key is text safe. -/
structure DocumentKey.Safe (document : DocumentKey) : Prop where
  userName : TextSafe document.userName
  key : TextSafe document.key
  side : TextSafe document.side

/-- The text of `mysqlInsert` is read as the intended `REPLACE`, whatever the content is. -/
theorem lex_insertText {σ : Type} (server : MysqlServer σ) {document : DocumentKey}
    (hsafe : document.Safe) (content : Bytes) :
    lex (insertText server.escapeString document content) =
      some (replaceStatement document content) := by
  let body : Pasted := ⟨singleQuote, server.escapeString content, content, ascii ")"⟩
  have hopen : ascii "REPLACE INTO jsonServer(userName,`key`,side,content) VALUES (\"" =
      ascii "REPLACE INTO jsonServer(userName,`key`,side,content) VALUES (" ++ [doubleQuote] := by
    decide +kernel
  have hnext : ascii "\",\"" = doubleQuote :: (ascii "," ++ [doubleQuote]) := rfl
  have hbody : ascii "\",'" = doubleQuote :: (ascii "," ++ [singleQuote]) := rfl
  have hclose : ascii "')" = singleQuote :: ascii ")" := rfl
  have htext : insertText server.escapeString document content =
      paste (ascii "REPLACE INTO jsonServer(userName,`key`,side,content) VALUES (")
        [.plain document.userName (ascii ","), .plain document.key (ascii ","),
          .plain document.side (ascii ","), body] := by
    rw [insertText, hsafe.userName.cString_eq, hsafe.key.cString_eq, hsafe.side.cString_eq,
      hopen, hnext, hbody, hclose]
    simp [paste, Pasted.text, Pasted.plain, body]
  have hhead :
      Unquoted (ascii "REPLACE INTO jsonServer(userName,`key`,side,content) VALUES (") := by
    decide +kernel
  have hcomma : Unquoted (ascii ",") := by decide
  have hend : Unquoted (ascii ")") := by decide
  have hplain {value : Bytes} (hvalue : TextSafe value) :
      (Pasted.plain value (ascii ",")).Faithful :=
    Pasted.plain_faithful hvalue.clean hcomma.double hcomma.single
  have hescaped : body.Faithful :=
    ⟨.inr rfl, hend.double, hend.single, fun rest ↦ server.scan_escapeString content rest⟩
  have hnext {rest : List Pasted} (hnil : ascii "," = []) : rest = [] :=
    absurd hnil (List.cons_ne_nil _ _)
  rw [htext, lex_paste hhead.double hhead.single]
  · rfl
  · exact ⟨hplain hsafe.userName, hnext, hplain hsafe.key, hnext, hplain hsafe.side, hnext,
      hescaped, fun _ ↦ rfl, trivial⟩

/-- The text of `mysqlQuery` is read as the intended `SELECT`. -/
theorem lex_queryText {document : DocumentKey} (hsafe : document.Safe) :
    lex (queryText document) = some (selectStatement document) := by
  have hopen : ascii "SELECT content FROM  jsonServer where userName = \"" =
      ascii "SELECT content FROM  jsonServer where userName = " ++ [doubleQuote] := by
    decide +kernel
  have hkey : ascii "\" AND `key`=\"" =
      doubleQuote :: (ascii " AND `key`=" ++ [doubleQuote]) := rfl
  have hside : ascii "\" AND side=\"" =
      doubleQuote :: (ascii " AND side=" ++ [doubleQuote]) := rfl
  have hclose : ascii "\"" = [doubleQuote] := rfl
  have htext : queryText document =
      paste (ascii "SELECT content FROM  jsonServer where userName = ")
        [.plain document.userName (ascii " AND `key`="), .plain document.key (ascii " AND side="),
          .plain document.side []] := by
    rw [queryText, hsafe.userName.cString_eq, hsafe.key.cString_eq, hsafe.side.cString_eq,
      hopen, hkey, hside, hclose]
    simp [paste, Pasted.text, Pasted.plain]
  have hhead : Unquoted (ascii "SELECT content FROM  jsonServer where userName = ") := by
    decide +kernel
  have hkeyText : Unquoted (ascii " AND `key`=") := by decide
  have hsideText : Unquoted (ascii " AND side=") := by decide
  have hnil : Unquoted [] := by decide
  rw [htext, lex_paste hhead.double hhead.single]
  · rfl
  · exact ⟨Pasted.plain_faithful hsafe.userName.clean hkeyText.double hkeyText.single,
      fun hempty ↦ absurd hempty (List.cons_ne_nil _ _),
      Pasted.plain_faithful hsafe.key.clean hsideText.double hsideText.single,
      fun hempty ↦ absurd hempty (List.cons_ne_nil _ _),
      Pasted.plain_faithful hsafe.side.clean hnil.double hnil.single, fun _ ↦ rfl, trivial⟩

end TradeServers.LogTimeServer
