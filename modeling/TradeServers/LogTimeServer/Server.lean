import TradeServers.LogTimeServer.Request
import TradeServers.LogTimeServer.Connection

/-!
# Dealing with a message

`comServer::dealMessage` parses a message and stores an uploaded document, answers a download, or
disconnects the peer. What it cannot decide itself, whether the pool hands out a connection and
whether the database accepts the statement, comes from outside with every message.
-/

set_option autoImplicit false
set_option relaxedAutoImplicit false

namespace TradeServers.LogTimeServer

open SqlLiteral PaddedField

/-- What the surroundings answer while one message is dealt with: `connected` when `getOneConnect`
returns a connection, `accepted` when `mysql_real_query` returns 0. -/
structure Answers where
  connected : Bool
  accepted : Bool

/-- What a message makes the server do to its peer. -/
inductive Action
  | silent
  | reply (message : Message)
  | disconnect
deriving DecidableEq

/-- The undefined behaviour a message can lead to: a method call on the null pointer that
`getOneConnect` returns after its timeout. -/
inductive Fault
  | nullConnection
deriving DecidableEq

section Database

variable {σ : Type} (server : MysqlServer σ) (answers : Answers) (db : σ)

/-- `MysqlConnection::mysqlInsert`: the new database and the text put into `res`. -/
def mysqlInsert (document : DocumentKey) (content : Bytes) : σ × Bytes :=
  if answers.accepted then
    ((server.realQuery db (insertText server.escapeString document content)).1, ascii "SUCC")
  else (db, ascii "FAIL")

/-- `MysqlConnection::mysqlQuery`: the database and the text put into `getRes`. The text that
`sprintf` puts into `query[64]` is longer than this buffer in every call (`Buffers`). It is passed
on here as if there were room for it; `DeliTimeServer` counts the same overflow as a fault. -/
def mysqlQuery (document : DocumentKey) : σ × Bytes :=
  if answers.accepted then
    let answer := server.realQuery db (queryText document)
    match answer.2.head? with
    | none => (answer.1, ascii "FAIL")
    | some content => (answer.1, content)
  else (db, ascii "FAIL")

/-- The header values under which a document is stored and looked up. -/
def Message.document (message : Message) : DocumentKey :=
  ⟨message.userName, message.key, message.side⟩

/-- What the third branch of `dealMessage` sends back of the text that `mysqlQuery` returned. -/
def downloadReply (document : DocumentKey) (sqlQueryRes : Bytes) : Action :=
  if sqlQueryRes.length ≤ 0 then .silent
  else if sqlQueryRes = ascii "FAIL" then
    .reply ⟨ascii "RSDPJ", ascii "TXT", document.userName, document.key, document.side,
      sqlQueryRes⟩
  else
    .reply ⟨ascii "RSDPJ", ascii "GZIP", document.userName, document.key, document.side,
      sqlQueryRes⟩

/-- `comServer::dealMessage`. -/
def dealMessage (msg : Bytes) : Except Fault (σ × Action) :=
  if headerLen ≤ msg.length then
    let request := parseHeader msg
    if request.cmd = ascii "RQUPJ" ∧ request.format = ascii "GZIP" then
      if answers.connected then
        let inserted := mysqlInsert server answers db request.document request.body
        .ok (inserted.1, .reply ⟨ascii "RSUPJ", ascii "TXT", request.userName, request.key,
          request.side, inserted.2⟩)
      else .ok (db, .silent)
    else if request.cmd = ascii "RQDPJ" then
      if answers.connected then
        let queried := mysqlQuery server answers db request.document
        .ok (queried.1, downloadReply request.document queried.2)
      else .error .nullConnection
    else if request.cmd ≠ ascii "HBET" then .ok (db, .disconnect)
    else .ok (db, .silent)
  else .ok (db, .silent)

/-! ### Uploads and downloads -/

/-- The row and the content that a message uploads, if it is an upload. -/
def uploadedBy (msg : Bytes) : Option (DocumentKey × Bytes) :=
  if headerLen ≤ msg.length then
    let request := parseHeader msg
    if request.cmd = ascii "RQUPJ" ∧ request.format = ascii "GZIP" then
      some (request.document, request.body)
    else none
  else none

/-- The document that a message asks for, if it is a download. -/
def downloadedBy (msg : Bytes) : Option DocumentKey :=
  if headerLen ≤ msg.length then
    let request := parseHeader msg
    if request.cmd = ascii "RQDPJ" then some request.document else none
  else none

variable {msg : Bytes} {document : DocumentKey} {body : Bytes}

theorem parseHeader_of_uploadedBy (hupload : uploadedBy msg = some (document, body)) :
    headerLen ≤ msg.length ∧ ((parseHeader msg).cmd = ascii "RQUPJ" ∧
      (parseHeader msg).format = ascii "GZIP") ∧
      (parseHeader msg).document = document ∧ (parseHeader msg).body = body := by
  unfold uploadedBy at hupload
  dsimp only at hupload
  split_ifs at hupload with hlength hbranch
  obtain ⟨hdocument, hbody⟩ := Prod.mk.inj (Option.some.inj hupload)
  exact ⟨hlength, hbranch, hdocument, hbody⟩

theorem parseHeader_of_downloadedBy (hdownload : downloadedBy msg = some document) :
    headerLen ≤ msg.length ∧ (parseHeader msg).cmd = ascii "RQDPJ" ∧
      (parseHeader msg).document = document := by
  unfold downloadedBy at hdownload
  dsimp only at hdownload
  split_ifs at hdownload with hlength hcmd
  exact ⟨hlength, hcmd, Option.some.inj hdownload⟩

theorem dealMessage_of_uploadedBy (hupload : uploadedBy msg = some (document, body)) :
    dealMessage server answers db msg =
      if answers.connected then
        .ok ((mysqlInsert server answers db document body).1,
          .reply ⟨ascii "RSUPJ", ascii "TXT", document.userName, document.key, document.side,
            (mysqlInsert server answers db document body).2⟩)
      else .ok (db, .silent) := by
  obtain ⟨hlength, hbranch, rfl, rfl⟩ := parseHeader_of_uploadedBy hupload
  unfold dealMessage
  rw [if_pos hlength]
  dsimp only
  rw [if_pos hbranch]
  rfl

theorem dealMessage_of_downloadedBy (hdownload : downloadedBy msg = some document) :
    dealMessage server answers db msg =
      if answers.connected then
        .ok ((mysqlQuery server answers db document).1,
          downloadReply document (mysqlQuery server answers db document).2)
      else .error .nullConnection := by
  obtain ⟨hlength, hcmd, rfl⟩ := parseHeader_of_downloadedBy hdownload
  have hbranch : ¬ ((parseHeader msg).cmd = ascii "RQUPJ" ∧
      (parseHeader msg).format = ascii "GZIP") := by
    rw [hcmd]
    exact fun hboth ↦ absurd hboth.1 (by decide)
  unfold dealMessage
  rw [if_pos hlength]
  dsimp only
  rw [if_neg hbranch, if_pos hcmd]

/-- A message is dealt with, unless it is a download without a connection. -/
theorem dealMessage_ok (hserved : downloadedBy msg ≠ none → answers.connected = true) :
    ∃ outcome, dealMessage server answers db msg = .ok outcome := by
  cases hdownload : downloadedBy msg with
  | some document =>
    rw [dealMessage_of_downloadedBy server answers db hdownload,
      if_pos (hserved (by rw [hdownload]; exact Option.some_ne_none document))]
    exact ⟨_, rfl⟩
  | none =>
    have hother (hlength : headerLen ≤ msg.length) : (parseHeader msg).cmd ≠ ascii "RQDPJ" := by
      intro hcmd
      rw [downloadedBy, if_pos hlength] at hdownload
      dsimp only at hdownload
      rw [if_pos hcmd] at hdownload
      cases hdownload
    unfold dealMessage
    by_cases hlength : headerLen ≤ msg.length
    · rw [if_pos hlength]
      dsimp only
      rw [if_neg (hother hlength)]
      split_ifs <;> exact ⟨_, rfl⟩
    · rw [if_neg hlength]
      exact ⟨_, rfl⟩

/-! ### The table -/

/-- An accepted upload overwrites its own row and no other. -/
theorem content_mysqlInsert (hsafe : document.Safe) (content : Bytes) :
    server.content (mysqlInsert server answers db document content).1 =
      if answers.accepted then Function.update (server.content db) document (some content)
      else server.content db := by
  unfold mysqlInsert
  split_ifs
  · exact server.replace db _ document content (lex_insertText server hsafe content)
  · rfl

/-- A query changes nothing. -/
theorem content_mysqlQuery (hsafe : document.Safe) :
    server.content (mysqlQuery server answers db document).1 = server.content db := by
  have hselect := (server.select db _ document (lex_queryText hsafe)).1
  unfold mysqlQuery
  split_ifs
  · dsimp only
    split <;> exact hselect
  · rfl

/-- A query returns the content of its row, and `"FAIL"` where there is none. -/
theorem result_mysqlQuery (hsafe : document.Safe) :
    (mysqlQuery server answers db document).2 =
      if answers.accepted then (server.content db document).getD (ascii "FAIL")
      else ascii "FAIL" := by
  have hselect := (server.select db _ document (lex_queryText hsafe)).2
  unfold mysqlQuery
  split_ifs
  · dsimp only
    rw [hselect]
    cases server.content db document <;> rfl
  · rfl

/-- The header values that a message puts into statements are text safe. -/
def SafeMessage (msg : Bytes) : Prop :=
  headerLen ≤ msg.length → (parseHeader msg).document.Safe

/-- The table after a message: an upload overwrites its row if a connection was there and the
statement was accepted, and nothing else changes. -/
theorem content_dealMessage (hsafe : SafeMessage msg) {next : σ} {action : Action}
    (hdeal : dealMessage server answers db msg = .ok (next, action)) :
    server.content next =
      match uploadedBy msg with
      | some (document, body) =>
        if answers.connected ∧ answers.accepted then
          Function.update (server.content db) document (some body)
        else server.content db
      | none => server.content db := by
  cases hupload : uploadedBy msg with
  | some uploaded =>
    obtain ⟨document, body⟩ := uploaded
    obtain ⟨hlength, -, hdocument, -⟩ := parseHeader_of_uploadedBy hupload
    have hstored : document.Safe := hdocument ▸ hsafe hlength
    rw [dealMessage_of_uploadedBy server answers db hupload] at hdeal
    dsimp only
    by_cases hconnected : answers.connected = true
    · rw [if_pos hconnected] at hdeal
      cases hdeal
      rw [content_mysqlInsert server answers db hstored]
      simp only [hconnected, true_and]
    · rw [if_neg hconnected] at hdeal
      cases hdeal
      exact (if_neg fun hboth ↦ hconnected hboth.1).symm
  | none =>
    by_cases hlength : headerLen ≤ msg.length
    · have hbranch : ¬ ((parseHeader msg).cmd = ascii "RQUPJ" ∧
          (parseHeader msg).format = ascii "GZIP") := by
        intro hbranch
        rw [uploadedBy, if_pos hlength] at hupload
        dsimp only at hupload
        rw [if_pos hbranch] at hupload
        cases hupload
      rw [dealMessage, if_pos hlength] at hdeal
      dsimp only at hdeal ⊢
      rw [if_neg hbranch] at hdeal
      -- the query of a download is the only statement that is left
      split_ifs at hdeal
      · cases hdeal
        exact content_mysqlQuery server answers db (hsafe hlength)
      all_goals
        cases hdeal
        rfl
    · rw [dealMessage, if_neg hlength] at hdeal
      cases hdeal
      rfl

end Database

end TradeServers.LogTimeServer
