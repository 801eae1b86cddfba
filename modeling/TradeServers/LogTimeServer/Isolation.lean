import TradeServers.LogTimeServer.Server
import TradeServers.Library.Execution

/-!
# Isolation of stored documents

Two documents whose header values differ should not affect each other: a download should be
answered the same whether or not other documents were uploaded. The key of a document is cut where
its user name ends, so this holds only as far as the cut keys differ. `isolation_iff` says exactly
which uploads a download is isolated from.
-/

set_option autoImplicit false
set_option relaxedAutoImplicit false

namespace TradeServers.LogTimeServer

open SqlLiteral PaddedField Execution

/-! ### Documents in headers -/

/-- Header values that name a document: nonempty, without spaces, no longer than their slots, and
text safe. -/
structure DocumentKey.Carried (document : DocumentKey) : Prop where
  userName_ne : document.userName ≠ []
  key_ne : document.key ≠ []
  side_ne : document.side ≠ []
  userName_unpadded : space ∉ document.userName
  key_unpadded : space ∉ document.key
  userName_fits : document.userName.length ≤ 32
  key_fits : document.key.length ≤ 4
  side_fits : document.side.length ≤ 1
  safe : document.Safe

/-- The row that a document is stored under: its key slot is cut after as many bytes as the user
name has. -/
def DocumentKey.stored (document : DocumentKey) : DocumentKey :=
  { document with key := (pad 4 space document.key).take document.userName.length }

/-- Two documents are stored in the same row: they have the same user name and side, and their keys
agree in as many bytes as the user name has. -/
def DocumentKey.Collides (first second : DocumentKey) : Prop :=
  first.userName = second.userName ∧ first.side = second.side ∧
    first.key.take first.userName.length = second.key.take second.userName.length

theorem textSafe_pad {value : Bytes} (hsafe : TextSafe value) (width : ℕ) :
    TextSafe (pad width space value) := by
  have hmem : ∀ byte ∈ pad width space value, byte ∈ value ∨ byte = space := by
    intro byte hbyte
    exact (List.mem_append.mp hbyte).imp_right List.eq_of_mem_replicate
  refine ⟨fun hnul ↦ ?_, fun hquote ↦ ?_, fun hbackslash ↦ ?_⟩
  · exact (hmem _ hnul).elim hsafe.nul (by decide)
  · exact (hmem _ hquote).elim hsafe.clean.quote (by decide)
  · exact (hmem _ hbackslash).elim hsafe.clean.backslash (by decide)

theorem DocumentKey.Safe.stored {document : DocumentKey} (hsafe : document.Safe) :
    document.stored.Safe :=
  ⟨hsafe.userName, (textSafe_pad hsafe.key 4).take _, hsafe.side⟩

/-- Documents share a row exactly when they collide. -/
theorem stored_eq_iff {first second : DocumentKey} (hfirst : space ∉ first.key)
    (hsecond : space ∉ second.key) : first.stored = second.stored ↔ first.Collides second := by
  unfold DocumentKey.Collides
  rw [DocumentKey.ext_iff]
  constructor
  · rintro ⟨huserName, hkey, hside⟩
    refine ⟨huserName, hside, ?_⟩
    have hlength : first.userName.length = second.userName.length := congrArg List.length huserName
    simp only [DocumentKey.stored, take_pad, hlength] at hkey ⊢
    exact pad_injective (fun hmem ↦ hfirst (List.mem_of_mem_take hmem))
      (fun hmem ↦ hsecond (List.mem_of_mem_take hmem)) hkey
  · rintro ⟨huserName, hside, hkey⟩
    refine ⟨huserName, ?_, hside⟩
    have hlength : first.userName.length = second.userName.length := congrArg List.length huserName
    rw [hlength] at hkey
    simp only [DocumentKey.stored, take_pad, hlength, hkey]

/-! ### Transfers -/

/-- A message with what its surroundings answer. -/
structure Request where
  message : Message
  answers : Answers

/-- The message is an upload. -/
def Message.IsUpload (message : Message) : Prop :=
  message.cmd = ascii "RQUPJ" ∧ message.format = ascii "GZIP"

/-- The message is a download. -/
def Message.IsDownload (message : Message) : Prop := message.cmd = ascii "RQDPJ"

/-- An upload or a download whose header carries a document. -/
structure Message.Transfer (message : Message) : Prop where
  carried : message.document.Carried
  format_unpadded : space ∉ message.format
  format_fits : message.format.length ≤ 4
  kind : message.IsUpload ∨ message.IsDownload

theorem Message.Transfer.fits {message : Message} (htransfer : message.Transfer) :
    message.Fits := by
  have hcmd : message.cmd.length ≤ 8 := by
    rcases htransfer.kind with ⟨hcmd, -⟩ | hcmd <;> rw [hcmd] <;> decide
  exact ⟨hcmd, htransfer.format_fits, htransfer.carried.userName_fits,
    htransfer.carried.key_fits, htransfer.carried.side_fits⟩

theorem Message.Transfer.cmd_recovered {message : Message} (htransfer : message.Transfer) :
    cutSlot (pad 8 space message.cmd) (pad 8 space message.cmd) = message.cmd := by
  rcases htransfer.kind with ⟨hcmd, -⟩ | hcmd <;> rw [hcmd] <;> decide

/-- Cutting the key's slot by the user name's leaves as many bytes as the user name has. -/
theorem cutSlot_key {document : DocumentKey} (hcarried : document.Carried) :
    cutSlot (pad 4 space document.key) (pad 32 space document.userName) =
      (pad 4 space document.key).take document.userName.length := by
  have huserName := hcarried.userName_fits
  have hslot : (pad 4 space document.key).length = 4 := length_pad hcarried.key_fits
  rw [cutSlot_pad hcarried.key_unpadded hcarried.key_fits hcarried.key_ne,
    find_pad hcarried.userName_unpadded huserName]
  split_ifs with hshort
  · rfl
  · rw [List.take_of_length_le (by unfold npos; omega), List.take_of_length_le (by omega)]

/-- The parser recovers the command, the user name, the side and the body of a transfer; the key
comes out as it is stored. -/
theorem parseHeader_transfer {message : Message} (htransfer : message.Transfer) :
    (parseHeader (payload message)).cmd = message.cmd ∧
      (parseHeader (payload message)).format =
        cutSlot (pad 4 space message.format) (pad 4 space message.format) ∧
      (parseHeader (payload message)).document = message.document.stored ∧
      (parseHeader (payload message)).body = message.body := by
  have hcarried := htransfer.carried
  have huserName : cutSlot (pad 32 space message.userName) (pad 32 space message.userName) =
      message.userName :=
    (cutSlot_self_eq_iff (by decide) (by decide) hcarried.userName_unpadded
      hcarried.userName_fits).mpr hcarried.userName_ne
  have hside : pad 1 space message.side = message.side :=
    (pad_side_eq_iff hcarried.side_fits).mpr hcarried.side_ne
  rw [parseHeader_payload htransfer.fits]
  refine ⟨htransfer.cmd_recovered, rfl, ?_, rfl⟩
  ext1
  · exact huserName
  · exact cutSlot_key hcarried
  · exact hside

theorem headerLen_le_payload {message : Message} (htransfer : message.Transfer) :
    headerLen ≤ (payload message).length := by
  rw [length_payload htransfer.fits]
  exact Nat.le_add_right _ _

/-! ### What a transfer does -/

section Database

variable {σ : Type} (server : MysqlServer σ) (answers : Answers) (db : σ) {message : Message}

theorem safeMessage_transfer (htransfer : message.Transfer) : SafeMessage (payload message) := by
  intro _
  rw [(parseHeader_transfer htransfer).2.2.1]
  exact htransfer.carried.safe.stored

theorem upload_recognised (htransfer : message.Transfer) (hupload : message.IsUpload) :
    (parseHeader (payload message)).cmd = ascii "RQUPJ" ∧
      (parseHeader (payload message)).format = ascii "GZIP" := by
  obtain ⟨hcmd, hformat, -⟩ := parseHeader_transfer htransfer
  rw [hcmd, hformat, hupload.1, hupload.2]
  decide

/-- An upload is for its own document and body. -/
theorem uploadedBy_transfer (htransfer : message.Transfer) (hupload : message.IsUpload) :
    uploadedBy (payload message) = some (message.document.stored, message.body) := by
  obtain ⟨-, -, hdocument, hbody⟩ := parseHeader_transfer htransfer
  rw [uploadedBy, if_pos (headerLen_le_payload htransfer)]
  dsimp only
  rw [if_pos (upload_recognised htransfer hupload), hdocument, hbody]

/-- A download asks for its own document. -/
theorem downloadedBy_transfer (htransfer : message.Transfer) (hdownload : message.IsDownload) :
    downloadedBy (payload message) = some message.document.stored := by
  obtain ⟨hcmd, -, hdocument, -⟩ := parseHeader_transfer htransfer
  rw [downloadedBy, if_pos (headerLen_le_payload htransfer)]
  dsimp only
  rw [if_pos (hcmd.trans hdownload), hdocument]

/-- The database after an upload: its row is overwritten if a connection was there and the
statement was accepted, and nothing else changes. -/
theorem dealMessage_upload (htransfer : message.Transfer) (hupload : message.IsUpload) :
    ∃ next action, dealMessage server answers db (payload message) = .ok (next, action) ∧
      server.content next =
        if answers.connected ∧ answers.accepted then
          Function.update (server.content db) message.document.stored (some message.body)
        else server.content db := by
  have huploaded := uploadedBy_transfer htransfer hupload
  have hdeals : ∃ next action,
      dealMessage server answers db (payload message) = .ok (next, action) := by
    rw [dealMessage_of_uploadedBy server answers db huploaded]
    split_ifs <;> exact ⟨_, _, rfl⟩
  obtain ⟨next, action, hdeal⟩ := hdeals
  have hcontent :=
    content_dealMessage server answers db (safeMessage_transfer htransfer) hdeal
  rw [huploaded] at hcontent
  exact ⟨next, action, hdeal, hcontent⟩

/-- A download calls a method on a null pointer without a connection, and otherwise sends what the
query of its row returned. -/
theorem dealMessage_download (htransfer : message.Transfer) (hdownload : message.IsDownload) :
    dealMessage server answers db (payload message) =
      if answers.connected then
        .ok ((mysqlQuery server answers db message.document.stored).1,
          downloadReply message.document.stored
            (mysqlQuery server answers db message.document.stored).2)
      else .error .nullConnection :=
  dealMessage_of_downloadedBy server answers db (downloadedBy_transfer htransfer hdownload)

/-- One message of a history. -/
def step (db : σ) (request : Request) : Except Fault σ :=
  (dealMessage server request.answers db (payload request.message)).map Prod.fst

/-- The reply to a message after a history. -/
def reply (outcome : Except Fault σ) (message : Message) : Except Fault Action :=
  outcome.bind fun db ↦ (dealMessage server answers db (payload message)).map Prod.snd

/-- Two databases have the same content in a row. -/
def SameRow (row : DocumentKey) (first second : σ) : Prop :=
  server.content first row = server.content second row

/-- Dealing with the same transfer keeps a row the same in two databases. -/
theorem step_keeps_sameRow (row : DocumentKey) (first second : σ) (request : Request)
    (hsame : SameRow server row first second) (htransfer : request.message.Transfer) :
    Agree (SameRow server row) (step server first request) (step server second request) := by
  rcases htransfer.kind with hupload | hdownload
  · obtain ⟨next1, action1, hdeal1, hcontent1⟩ :=
      dealMessage_upload server request.answers first htransfer hupload
    obtain ⟨next2, action2, hdeal2, hcontent2⟩ :=
      dealMessage_upload server request.answers second htransfer hupload
    rw [step, step, hdeal1, hdeal2]
    apply Agree.ok
    unfold SameRow
    rw [hcontent1, hcontent2]
    split_ifs
    · rw [Function.update_apply, Function.update_apply, hsame]
    · exact hsame
  · rw [step, step, dealMessage_download server request.answers first htransfer hdownload,
      dealMessage_download server request.answers second htransfer hdownload]
    split_ifs
    · apply Agree.ok
      unfold SameRow
      rw [content_mysqlQuery server request.answers first htransfer.carried.safe.stored,
        content_mysqlQuery server request.answers second htransfer.carried.safe.stored]
      exact hsame
    · exact Agree.error _

/-- An upload that is stored in another row changes nothing in this one. -/
theorem step_upload_other (row : DocumentKey) (first second : σ) (request : Request)
    (hsame : SameRow server row first second) (htransfer : request.message.Transfer)
    (hupload : request.message.IsUpload) (hother : request.message.document.stored ≠ row) :
    ∃ next, step server first request = .ok next ∧ SameRow server row next second := by
  obtain ⟨next, action, hdeal, hcontent⟩ :=
    dealMessage_upload server request.answers first htransfer hupload
  refine ⟨next, by rw [step, hdeal]; rfl, ?_⟩
  unfold SameRow
  rw [hcontent]
  split_ifs
  · rw [Function.update_of_ne hother.symm]
    exact hsame
  · exact hsame

/-- Outcomes that agree on the row of a download lead to the same reply. -/
theorem reply_eq_of_agree {first second : Except Fault σ} (htransfer : message.Transfer)
    (hdownload : message.IsDownload)
    (hagree : Agree (SameRow server message.document.stored) first second) :
    reply server answers first message = reply server answers second message := by
  unfold reply
  cases hagree with
  | error fault => rfl
  | ok hsame =>
    unfold SameRow at hsame
    simp only [Except.bind, dealMessage_download server answers _ htransfer hdownload]
    split_ifs
    · simp only [Except.map, result_mysqlQuery server answers _ htransfer.carried.safe.stored,
        hsame]
    · rfl

/-! ### Isolation -/

/-- The history of a list of requests. -/
def history : σ → List Request → Except Fault σ := run (step server)

/-- Leaving uploads of the given documents out of a history never changes the reply to the
download, whatever the surroundings answer. -/
def Isolated (download : Message) (removed : Set DocumentKey) : Prop :=
  ∀ answers requests fewer,
    Removed (fun request : Request ↦ request.message.Transfer)
      (fun request ↦ request.message.IsUpload ∧ request.message.document ∈ removed)
      requests fewer →
    reply server answers (history server db requests) download =
      reply server answers (history server db fewer) download

/-- Documents that do not collide with that of the download are isolated from it. -/
theorem isolated_of_not_collides {download : Message} {removed : Set DocumentKey}
    (htransfer : download.Transfer) (hdownload : download.IsDownload)
    (hcollides : ∀ document ∈ removed, document.Carried → ¬ document.Collides download.document) :
    Isolated server db download removed := by
  intro answers requests fewer hremoved
  apply reply_eq_of_agree server answers htransfer hdownload
  apply hremoved.run (step_keeps_sameRow server download.document.stored) ?_
    (rfl : SameRow server download.document.stored db db)
  intro first second request hsame hcarried hremovable
  apply step_upload_other server _ _ _ _ hsame hcarried hremovable.1
  intro hstored
  exact hcollides _ hremovable.2 hcarried.carried
    ((stored_eq_iff hcarried.carried.key_unpadded htransfer.carried.key_unpadded).mp hstored)

/-- The upload of a body for a document. -/
def uploadOf (document : DocumentKey) (body : Bytes) : Message :=
  ⟨ascii "RQUPJ", ascii "GZIP", document.userName, document.key, document.side, body⟩

/-- The download of a document. -/
def downloadOf (document : DocumentKey) : Message :=
  ⟨ascii "RQDPJ", ascii "GZIP", document.userName, document.key, document.side, []⟩

theorem uploadOf_isUpload (document : DocumentKey) (body : Bytes) :
    (uploadOf document body).IsUpload := ⟨rfl, rfl⟩

theorem uploadOf_transfer {document : DocumentKey} (hcarried : document.Carried) (body : Bytes) :
    (uploadOf document body).Transfer where
  carried := hcarried
  format_unpadded := (by decide : space ∉ ascii "GZIP")
  format_fits := (by decide : (ascii "GZIP").length ≤ 4)
  kind := .inl (uploadOf_isUpload document body)

theorem downloadOf_transfer {document : DocumentKey} (hcarried : document.Carried) :
    (downloadOf document).Transfer where
  carried := hcarried
  format_unpadded := (by decide : space ∉ ascii "GZIP")
  format_fits := (by decide : (ascii "GZIP").length ≤ 4)
  kind := .inr rfl

/-- With a connection and an accepted query, the reply is made of the content of the row. -/
theorem reply_ok {download : Message} (htransfer : download.Transfer)
    (hdownload : download.IsDownload) :
    reply server ⟨true, true⟩ (.ok db) download =
      .ok (downloadReply download.document.stored
        ((server.content db download.document.stored).getD (ascii "FAIL"))) := by
  unfold reply
  rw [Except.bind, dealMessage_download server _ db htransfer hdownload, if_pos rfl, Except.map,
    result_mysqlQuery server _ db htransfer.carried.safe.stored, if_pos rfl]

/-- After an upload to the row of a download, the reply is made of the uploaded body. -/
theorem reply_after_upload {download : Message} (htransfer : download.Transfer)
    (hdownload : download.IsDownload) {document : DocumentKey} (hcarried : document.Carried)
    (hcollides : document.Collides download.document) (body : Bytes) :
    reply server ⟨true, true⟩ (history server db [⟨uploadOf document body, ⟨true, true⟩⟩])
        download =
      .ok (downloadReply download.document.stored body) := by
  have hstored : document.stored = download.document.stored :=
    (stored_eq_iff hcarried.key_unpadded htransfer.carried.key_unpadded).mpr hcollides
  obtain ⟨next, action, hdeal, hcontent⟩ := dealMessage_upload server ⟨true, true⟩ db
    (uploadOf_transfer hcarried body) (uploadOf_isUpload document body)
  have hstep : step server db ⟨uploadOf document body, ⟨true, true⟩⟩ = .ok next := by
    rw [step, hdeal]
    rfl
  have hrow : server.content next download.document.stored = some body := by
    rw [hcontent, if_pos ⟨rfl, rfl⟩]
    show Function.update (server.content db) document.stored (some body) _ = some body
    rw [hstored, Function.update_self]
  rw [history, run_cons_ok hstep, run_nil, reply_ok server next htransfer hdownload, hrow]
  rfl

/-- A reply that carries a document of one byte tells the text that the query returned. -/
theorem eq_of_downloadReply {document : DocumentKey} {byte : UInt8} {sqlQueryRes : Bytes}
    (hreply : downloadReply document [byte] = downloadReply document sqlQueryRes) :
    sqlQueryRes = [byte] := by
  have hbyte : [byte] ≠ ascii "FAIL" := fun heq ↦ by cases congrArg List.length heq
  have hleft : downloadReply document [byte] = .reply ⟨ascii "RSDPJ", ascii "GZIP",
      document.userName, document.key, document.side, [byte]⟩ := by
    rw [downloadReply, if_neg (by simp), if_neg hbyte]
  rw [hleft, downloadReply] at hreply
  split_ifs at hreply
  · cases congrArg (fun action ↦ match action with
      | .reply message => message.format.length
      | _ => 0) hreply
  · injection hreply with hmessage
    exact (congrArg Message.body hmessage).symm

/-- A download is isolated from exactly the documents that do not collide with its own: those of
another user or side, and those whose keys differ within as many bytes as the user name has. -/
theorem isolation_iff {download : Message} (htransfer : download.Transfer)
    (hdownload : download.IsDownload) (removed : Set DocumentKey) :
    Isolated server db download removed ↔
      ∀ document ∈ removed, document.Carried → ¬ document.Collides download.document := by
  constructor
  · intro hisolated document hmem hcarried hcollides
    -- a body that the row does not hold yet
    obtain ⟨byte, hbyte⟩ : ∃ byte : UInt8,
        (server.content db download.document.stored).getD (ascii "FAIL") ≠ [byte] := by
      by_cases hone : (server.content db download.document.stored).getD (ascii "FAIL") = [1]
      · exact ⟨2, by rw [hone]; decide⟩
      · exact ⟨1, hone⟩
    have hsame := hisolated ⟨true, true⟩ [⟨uploadOf document [byte], ⟨true, true⟩⟩] []
      (.drop _ (uploadOf_transfer hcarried [byte])
        ⟨uploadOf_isUpload document [byte], hmem⟩ .nil)
    rw [reply_after_upload server db htransfer hdownload hcarried hcollides, history, run_nil,
      reply_ok server db htransfer hdownload] at hsame
    exact hbyte (eq_of_downloadReply (Except.ok.inj hsame))
  · exact isolated_of_not_collides server db htransfer hdownload

end Database

/-- A document of a user with a name of three bytes. -/
def annual (key : Bytes) : DocumentKey := ⟨ascii "ann", key, ascii "B"⟩

theorem annual_carried {key : Bytes} (hne : key ≠ []) (hunpadded : space ∉ key)
    (hfits : key.length ≤ 4) (hsafe : TextSafe key) : (annual key).Carried where
  userName_ne := (by decide : ascii "ann" ≠ [])
  key_ne := hne
  side_ne := (by decide : ascii "B" ≠ [])
  userName_unpadded := (by decide : space ∉ ascii "ann")
  key_unpadded := hunpadded
  userName_fits := (by decide : (ascii "ann").length ≤ 32)
  key_fits := hfits
  side_fits := (by decide : (ascii "B").length ≤ 1)
  safe := ⟨(by decide : TextSafe (ascii "ann")), hsafe, (by decide : TextSafe (ascii "B"))⟩

/-- The document `"2024"` of the user `"ann"`. -/
theorem annual_carried_2024 : (annual (ascii "2024")).Carried :=
  annual_carried (by decide) (by decide) (by decide) (by decide)

theorem isolation_of_annual :
    Isolated .ofTable (fun _ ↦ none) (downloadOf (annual (ascii "2025"))) {annual (ascii "1999")} ↔
      ∀ document ∈ ({annual (ascii "1999")} : Set DocumentKey), document.Carried →
        ¬ document.Collides (downloadOf (annual (ascii "2025"))).document :=
  isolation_iff .ofTable (fun _ ↦ none)
    (downloadOf_transfer (annual_carried (by decide) (by decide) (by decide) (by decide))) rfl _

/-- The upload of `"2024"` changes the reply to a download of `"2025"`. -/
theorem annual_not_isolated :
    annual (ascii "2024") ≠ annual (ascii "2025") ∧
      (uploadOf (annual (ascii "2024")) [31]).Transfer ∧
      (downloadOf (annual (ascii "2025"))).Transfer ∧
      reply .ofTable ⟨true, true⟩ (history .ofTable (fun _ ↦ none)
          [⟨uploadOf (annual (ascii "2024")) [31], ⟨true, true⟩⟩])
          (downloadOf (annual (ascii "2025"))) =
        .ok (.reply ⟨ascii "RSDPJ", ascii "GZIP", ascii "ann", ascii "202", ascii "B", [31]⟩) ∧
      reply .ofTable ⟨true, true⟩ (history .ofTable (fun _ ↦ none) [])
          (downloadOf (annual (ascii "2025"))) =
        .ok (.reply ⟨ascii "RSDPJ", ascii "TXT", ascii "ann", ascii "202", ascii "B",
          ascii "FAIL"⟩) := by
  have hfirst := annual_carried_2024
  have hsecond : (annual (ascii "2025")).Carried :=
    annual_carried (by decide) (by decide) (by decide) (by decide)
  refine ⟨by decide, uploadOf_transfer hfirst _, downloadOf_transfer hsecond, ?_, ?_⟩
  · rw [reply_after_upload .ofTable _ (downloadOf_transfer hsecond) rfl hfirst
      ⟨rfl, rfl, by decide⟩]
    decide
  · rw [history, run_nil, reply_ok .ofTable _ (downloadOf_transfer hsecond) rfl]
    decide

end TradeServers.LogTimeServer
