import TradeServers.LogTimeServer.Isolation

/-!
# Requests and their replies

What a client gets back for a request, whatever the pool and the database answer. An upload without
a connection is dropped (`replies_to_requests`). The text in which `mysqlQuery` hands over a
document also carries its failures, so a document that looks like one is not given back
(`download_of_upload_iff`).
-/

set_option autoImplicit false
set_option relaxedAutoImplicit false

namespace TradeServers.LogTimeServer

open SqlLiteral PaddedField Execution

/-! ### Requests -/

theorem length_substr_le (text : Bytes) (position count : ℕ) :
    (substr text position count).length ≤ count := by
  unfold substr
  exact List.length_take_le _ _

theorem length_cutSlot_le (slotBuf searched : Bytes) :
    (cutSlot slotBuf searched).length ≤ slotBuf.length := by
  unfold cutSlot
  split_ifs
  · rw [substr, List.length_take, List.drop_zero]
    exact Nat.min_le_right _ _
  · exact Nat.le_refl _

theorem length_substr {text : Bytes} {position count : ℕ} (hroom : position + count ≤ text.length) :
    (substr text position count).length = count := by
  rw [substr, List.length_take, List.length_drop]
  omega

/-- A slot that holds a value filled up with spaces comes back in a reply when the value is no
longer than the user name, where it is cut. -/
theorem pad_cutSlot {width : ℕ} {value userName : Bytes} (hwidth : 0 < width)
    (habsent : space ∉ value) (hfit : value.length ≤ width) (habsentUser : space ∉ userName)
    (hfitUser : userName.length ≤ 32) (hshorter : value.length ≤ userName.length) :
    pad width space (cutSlot (pad width space value) (pad 32 space userName)) =
      pad width space value := by
  rcases eq_or_ne value [] with rfl | hne
  · rw [cutSlot_pad_nil hwidth]
    exact pad_of_length_eq (length_pad hfit)
  · rw [cutSlot_pad habsent hfit hne, find_pad habsentUser hfitUser]
    split_ifs
    · exact pad_take_pad hfit hshorter
    · exact pad_take_pad hfit (by unfold npos; omega)

/-- A frame that answers a request: it has the given command and the values that the parser makes of
the request, each in its own slot. The side of the request comes back as it is, the user name when
its slot holds a value filled up with spaces, and the key when besides its slot holds such a value
that is no longer than the user name. -/
structure Message.AnswersTo (reply : Message) (cmd msg : Bytes) : Prop where
  cmd : reply.cmd = cmd
  document : reply.document = (parseHeader msg).document
  side : substr (header reply) 48 1 = substr msg 48 1
  userName : ∀ userName, space ∉ userName → substr msg 12 32 = pad 32 space userName →
    substr (header reply) 12 32 = substr msg 12 32
  key : ∀ userName key, space ∉ userName → substr msg 12 32 = pad 32 space userName →
    space ∉ key → substr msg 44 4 = pad 4 space key → key.length ≤ userName.length →
      substr (header reply) 44 4 = substr msg 44 4
  header : header reply = slots reply

/-- Values that the parser cut out of a header fit the slots of the reply. -/
theorem fits_parsed (msg : Bytes) {cmd format : Bytes} (hcmd : cmd.length ≤ 8)
    (hformat : format.length ≤ 4) (res : Bytes) :
    Message.Fits ⟨cmd, format, (parseHeader msg).userName, (parseHeader msg).key,
      (parseHeader msg).side, res⟩ where
  cmd := hcmd
  format := hformat
  userName := (length_cutSlot_le _ _).trans (length_substr_le _ _ _)
  key := (length_cutSlot_le _ _).trans (length_substr_le _ _ _)
  side := length_substr_le _ _ _

theorem answersTo_parsed {msg : Bytes} (hlength : headerLen ≤ msg.length) {cmd format : Bytes}
    (hcmd : cmd.length ≤ 8) (hformat : format.length ≤ 4) (res : Bytes) :
    Message.AnswersTo ⟨cmd, format, (parseHeader msg).userName, (parseHeader msg).key,
      (parseHeader msg).side, res⟩ cmd msg := by
  have hfits := fits_parsed msg hcmd hformat res
  have hsize : 49 ≤ msg.length := hlength
  have huserName : (substr msg 12 32).length = 32 := length_substr (by omega)
  have hkey : (substr msg 44 4).length = 4 := length_substr (by omega)
  have hside : (substr msg 48 1).length = 1 := length_substr (by omega)
  have hheader := header_of_fits hfits
  have hslots := substr_slotsOver space hfits []
  rw [List.append_nil] at hslots
  obtain ⟨-, -, huserSlot, hkeySlot, hsideSlot, -⟩ := hslots
  constructor
  case cmd => rfl
  case document => rfl
  case header => exact hheader
  case side =>
    rw [hheader, slots, hsideSlot]
    exact pad_of_length_eq hside
  case userName =>
    intro userName habsent hslot
    have hfit : userName.length ≤ 32 :=
      length_le_of_length_pad (hslot ▸ huserName : (pad 32 space userName).length = 32)
    rw [hheader, slots, huserSlot]
    change pad 32 space (cutSlot (substr msg 12 32) (substr msg 12 32)) = _
    rw [hslot]
    exact pad_cutSlot (by decide) habsent hfit habsent hfit le_rfl
  case key =>
    intro userName key habsentUser hslotUser habsent hslot hshorter
    have hfitUser : userName.length ≤ 32 :=
      length_le_of_length_pad (hslotUser ▸ huserName : (pad 32 space userName).length = 32)
    have hfit : key.length ≤ 4 :=
      length_le_of_length_pad (hslot ▸ hkey : (pad 4 space key).length = 4)
    rw [hheader, slots, hkeySlot]
    change pad 4 space (cutSlot (substr msg 44 4) (substr msg 12 32)) = _
    rw [hslot, hslotUser]
    exact pad_cutSlot (by decide) habsent hfit habsentUser hfitUser hshorter

/-- A document that is carried by the header of an upload is stored under its cut key. -/
theorem uploadedBy_uploadOf {document : DocumentKey} (hcarried : document.Carried) (body : Bytes) :
    uploadedBy (payload (uploadOf document body)) = some (document.stored, body) := by
  rw [uploadedBy_transfer (uploadOf_transfer hcarried body) (uploadOf_isUpload document body)]
  rfl

theorem downloadedBy_downloadOf {document : DocumentKey} (hcarried : document.Carried) :
    downloadedBy (payload (downloadOf document)) = some document.stored := by
  rw [downloadedBy_transfer (downloadOf_transfer hcarried) rfl]
  rfl

section Database

variable {σ : Type} (server : MysqlServer σ) (answers : Answers) (db : σ) {msg : Bytes}
  {document : DocumentKey} {body : Bytes}

/-- The content that the database answers to the query of a document, if it has a row for it. -/
def storedRow (document : DocumentKey) : Option Bytes :=
  (server.realQuery db (queryText document)).2.head?

/-- `mysqlQuery` hands over the row it finds, or `"FAIL"`. -/
theorem mysqlQuery_result (document : DocumentKey) :
    (mysqlQuery server answers db document).2 =
      if answers.accepted then (storedRow server db document).getD (ascii "FAIL")
      else ascii "FAIL" := by
  unfold mysqlQuery storedRow
  split_ifs
  · dsimp only
    cases (server.realQuery db (queryText document)).2.head? <;> rfl
  · rfl

/-! ### Replies -/

/-- The reply to an upload that gets a connection. -/
theorem reply_to_upload (hupload : uploadedBy msg = some (document, body))
    (hconnected : answers.connected = true) :
    ∃ next reply, dealMessage server answers db msg = .ok (next, .reply reply) ∧
      reply.AnswersTo (ascii "RSUPJ") msg := by
  obtain ⟨hlength, -, rfl, rfl⟩ := parseHeader_of_uploadedBy hupload
  rw [dealMessage_of_uploadedBy server answers db hupload, if_pos hconnected]
  exact ⟨_, _, rfl, answersTo_parsed hlength (by decide) (by decide) _⟩

/-- The reply to a download that gets a connection, unless its row is empty. -/
theorem reply_to_download (hdownload : downloadedBy msg = some document)
    (hconnected : answers.connected = true)
    (hrow : answers.accepted = true → storedRow server db document ≠ some []) :
    ∃ next reply, dealMessage server answers db msg = .ok (next, .reply reply) ∧
      reply.AnswersTo (ascii "RSDPJ") msg := by
  have hresult : ¬ (mysqlQuery server answers db document).2.length ≤ 0 := by
    rw [mysqlQuery_result, Nat.le_zero, List.length_eq_zero_iff]
    split_ifs with haccepted
    · cases hstored : storedRow server db document with
      | none => decide
      | some content =>
        rintro rfl
        exact hrow haccepted hstored
    · decide
  obtain ⟨hlength, -, rfl⟩ := parseHeader_of_downloadedBy hdownload
  rw [dealMessage_of_downloadedBy server answers db hdownload, if_pos hconnected, downloadReply,
    if_neg hresult]
  split_ifs
  · exact ⟨_, _, rfl, answersTo_parsed hlength (by decide) (by decide) _⟩
  · exact ⟨_, _, rfl, answersTo_parsed hlength (by decide) (by decide) _⟩

/-- An upload is answered with one frame when the pool has a connection for it, and dropped without
an answer when it has none. A download that gets a connection is answered with one frame, unless
the row it finds is empty. The frames carry the user name, the key and the side of the request as
far as `Message.AnswersTo` says. -/
theorem replies_to_requests (msg : Bytes) :
    (∀ document body, uploadedBy msg = some (document, body) →
      if answers.connected then
        ∃ next reply, dealMessage server answers db msg = .ok (next, .reply reply) ∧
          reply.AnswersTo (ascii "RSUPJ") msg
      else dealMessage server answers db msg = .ok (db, .silent)) ∧
    (∀ document, downloadedBy msg = some document → answers.connected = true →
      (answers.accepted = true → storedRow server db document ≠ some []) →
      ∃ next reply, dealMessage server answers db msg = .ok (next, .reply reply) ∧
        reply.AnswersTo (ascii "RSDPJ") msg) := by
  refine ⟨fun document body hupload ↦ ?_, fun document ↦ reply_to_download server answers db⟩
  split_ifs with hconnected
  · exact reply_to_upload server answers db hupload hconnected
  · rw [dealMessage_of_uploadedBy server answers db hupload, if_neg hconnected]

end Database

theorem replies_to_annual_upload :
    ∃ next reply,
      dealMessage .ofTable ⟨true, true⟩ (fun _ ↦ none)
          (payload (uploadOf (annual (ascii "2024")) [31])) = .ok (next, .reply reply) ∧
        reply.AnswersTo (ascii "RSUPJ") (payload (uploadOf (annual (ascii "2024")) [31])) := by
  have hreply := (replies_to_requests .ofTable ⟨true, true⟩ (fun _ ↦ none) _).1 _ _
    (uploadedBy_uploadOf annual_carried_2024 [31])
  rwa [if_pos rfl] at hreply

/-- Three requests that get no reply: an upload without a connection, a download whose row is empty,
and a download without a connection, which calls a method through the null pointer. The reply to a
fourth one carries the key that the parser cut. -/
theorem requests_without_reply :
    (dealMessage .ofTable ⟨false, true⟩ (fun _ ↦ none)
        (payload (uploadOf (annual (ascii "2024")) [31]))).map Prod.snd = .ok .silent ∧
      (dealMessage .ofTable ⟨true, true⟩ (fun _ ↦ some [])
        (payload (downloadOf (annual (ascii "2024"))))).map Prod.snd = .ok .silent ∧
      dealMessage .ofTable ⟨false, true⟩ (fun _ ↦ none)
        (payload (downloadOf (annual (ascii "2024")))) = .error .nullConnection ∧
      (dealMessage .ofTable ⟨true, true⟩ (fun _ ↦ none)
        (payload (uploadOf (annual (ascii "2024")) [31]))).map Prod.snd =
          .ok (.reply ⟨ascii "RSUPJ", ascii "TXT", ascii "ann", ascii "202", ascii "B",
            ascii "SUCC"⟩) := by
  have hupload := uploadedBy_uploadOf annual_carried_2024 [31]
  have hdownload := downloadedBy_downloadOf annual_carried_2024
  rw [dealMessage_of_uploadedBy _ _ _ hupload, dealMessage_of_downloadedBy _ _ _ hdownload,
    dealMessage_of_downloadedBy _ _ _ hdownload, dealMessage_of_uploadedBy _ _ _ hupload]
  refine ⟨rfl, ?_, rfl, rfl⟩
  have hresult : (mysqlQuery .ofTable ⟨true, true⟩ (fun _ ↦ some [])
      (annual (ascii "2024")).stored).2 = [] :=
    result_mysqlQuery .ofTable ⟨true, true⟩ _ annual_carried_2024.safe.stored
  rw [if_pos rfl, hresult]
  rfl

/-! ### Downloads of uploaded documents -/

section Database

variable {σ : Type} (server : MysqlServer σ) (answers : Answers) (db : σ) {msg : Bytes}
  {document : DocumentKey} {body : Bytes}

/-- A message between an upload and a download. -/
def deal (db : σ) (entry : Bytes × Answers) : Except Fault σ :=
  (dealMessage server entry.2 db entry.1).map Prod.fst

/-- The download gets its document back. -/
def GivenBack (download : Bytes) (document : DocumentKey) (body : Bytes) : Prop :=
  ∃ next, dealMessage server ⟨true, true⟩ db download = .ok (next,
    .reply ⟨ascii "RSDPJ", ascii "GZIP", document.userName, document.key, document.side, body⟩)

/-- The download is answered with a failure only when its query fails. -/
def FailsOnlyRefused (download : Bytes) : Prop :=
  ∀ answers next reply, dealMessage server answers db download = .ok (next, .reply reply) →
    reply.format = ascii "TXT" → reply.body = ascii "FAIL" → answers.accepted = false

/-- An upload that was answered with success left its document in the table. -/
theorem content_of_success (hsafe : document.Safe) {stored : σ} {reply : Message}
    (hupload : uploadedBy msg = some (document, body))
    (hdeal : dealMessage server answers db msg = .ok (stored, .reply reply))
    (hsuccess : reply.body = ascii "SUCC") :
    server.content stored document = some body := by
  rw [dealMessage_of_uploadedBy server answers db hupload] at hdeal
  split_ifs at hdeal
  · obtain ⟨rfl, haction⟩ := Prod.mk.inj (Except.ok.inj hdeal)
    injection haction with hreply
    have haccepted : answers.accepted = true := by
      by_contra hrefused
      rw [← hreply, mysqlInsert, if_neg hrefused] at hsuccess
      exact absurd hsuccess (by decide : ascii "FAIL" ≠ ascii "SUCC")
    rw [content_mysqlInsert server answers db hsafe, if_pos haccepted, Function.update_self]
  · cases hdeal

/-- Messages that are not uploads leave every document in the table. -/
theorem content_between {stored later : σ} {between : List (Bytes × Answers)}
    (hbetween : ∀ entry ∈ between, uploadedBy entry.1 = none)
    (hsafe : ∀ entry ∈ between, SafeMessage entry.1)
    (hrun : run (deal server) stored between = .ok later) :
    server.content later = server.content stored := by
  have hguarded : Guarded (deal server)
      (fun _ entry ↦ uploadedBy entry.1 = none ∧ SafeMessage entry.1) stored between :=
    guarded_of_forall_mem (fun entry hentry ↦ ⟨hbetween entry hentry, hsafe entry hentry⟩) stored
  have hstep : ∀ state entry next, server.content state = server.content stored →
      uploadedBy entry.1 = none ∧ SafeMessage entry.1 → deal server state entry = .ok next →
      server.content next = server.content stored := by
    intro state entry next hcontent hguard hstep
    unfold deal at hstep
    cases hdeal : dealMessage server entry.2 state entry.1 with
    | error fault =>
      rw [hdeal] at hstep
      cases hstep
    | ok outcome =>
      rw [hdeal] at hstep
      obtain rfl : outcome.1 = next := Except.ok.inj hstep
      have hdealt := content_dealMessage server entry.2 state hguard.2 hdeal
      rw [hguard.1] at hdealt
      exact hdealt.trans hcontent
  exact hguarded.run_invariant hstep rfl hrun

/-- What a download makes of the row that the database answers. -/
theorem givenBack_iff (hdownload : downloadedBy msg = some document)
    (hrow : storedRow server db document = some body) :
    GivenBack server db msg document body ∧ FailsOnlyRefused server db msg ↔
      body ≠ [] ∧ body ≠ ascii "FAIL" := by
  have hresult (answers : Answers) : (mysqlQuery server answers db document).2 =
      if answers.accepted then body else ascii "FAIL" := by
    rw [mysqlQuery_result, hrow, Option.getD_some]
  constructor
  · rintro ⟨⟨next, hgiven⟩, hfails⟩
    rw [dealMessage_of_downloadedBy server ⟨true, true⟩ db hdownload, if_pos rfl, hresult,
      if_pos rfl] at hgiven
    have haction := (Prod.mk.inj (Except.ok.inj hgiven)).2
    constructor
    · rintro rfl
      cases haction
    · rintro rfl
      have hdeal := dealMessage_of_downloadedBy server ⟨true, true⟩ db hdownload
      rw [if_pos rfl, hresult, if_pos rfl] at hdeal
      exact absurd (hfails ⟨true, true⟩ _ _ hdeal rfl rfl) (by decide)
  · rintro ⟨hnil, hfail⟩
    have hlength : ¬ body.length ≤ 0 := by
      rwa [Nat.le_zero, List.length_eq_zero_iff]
    constructor
    · refine ⟨(mysqlQuery server ⟨true, true⟩ db document).1, ?_⟩
      rw [dealMessage_of_downloadedBy server ⟨true, true⟩ db hdownload, if_pos rfl, hresult,
        if_pos rfl, downloadReply, if_neg hlength, if_neg hfail]
    · intro answers next reply hdeal hformat _
      by_contra haccepted
      rw [Bool.not_eq_false] at haccepted
      rw [dealMessage_of_downloadedBy server answers db hdownload, hresult, if_pos haccepted,
        downloadReply, if_neg hlength, if_neg hfail] at hdeal
      split_ifs at hdeal
      have haction := (Prod.mk.inj (Except.ok.inj hdeal)).2
      injection haction with hreply
      rw [← hreply] at hformat
      exact absurd hformat (by decide : ascii "GZIP" ≠ ascii "TXT")

/-- A document that was uploaded with success is still in its row when no other upload followed.
Whenever the database answers this row, the download gets the document back, and is not told of a
failure, exactly when the document is neither empty nor the text `"FAIL"`. -/
theorem download_of_upload_iff {upload download : Bytes} {stored later : σ} {reply : Message}
    {between : List (Bytes × Answers)} (hupload : uploadedBy upload = some (document, body))
    (hdeal : dealMessage server answers db upload = .ok (stored, .reply reply))
    (hsuccess : reply.body = ascii "SUCC")
    (hbetween : ∀ entry ∈ between, uploadedBy entry.1 = none)
    (hrun : run (deal server) stored between = .ok later)
    (hdownload : downloadedBy download = some document) :
    (document.Safe → (∀ entry ∈ between, SafeMessage entry.1) →
        storedRow server later document = some body) ∧
      (storedRow server later document = some body →
        (GivenBack server later download document body ∧ FailsOnlyRefused server later download ↔
          body ≠ [] ∧ body ≠ ascii "FAIL")) := by
  refine ⟨fun hsafe hsafeBetween ↦ ?_, givenBack_iff server later hdownload⟩
  have hcontent := content_of_success server answers db hsafe hupload hdeal hsuccess
  rw [← content_between server hbetween hsafeBetween hrun] at hcontent
  rw [storedRow, (server.select later _ document (lex_queryText hsafe)).2, hcontent]
  rfl

end Database

/-- An accepted upload of a body for `"2024"` to the empty table. -/
theorem annual_stored (body : Bytes) :
    dealMessage .ofTable ⟨true, true⟩ (fun _ ↦ none)
        (payload (uploadOf (annual (ascii "2024")) body)) =
      .ok ((mysqlInsert .ofTable ⟨true, true⟩ (fun _ ↦ none)
          (annual (ascii "2024")).stored body).1,
        .reply ⟨ascii "RSUPJ", ascii "TXT", ascii "ann", ascii "202", ascii "B",
          ascii "SUCC"⟩) := by
  rw [dealMessage_of_uploadedBy _ _ _ (uploadedBy_uploadOf annual_carried_2024 body)]
  rfl

theorem download_of_annual_upload :
    let later := (mysqlInsert .ofTable ⟨true, true⟩ (fun _ ↦ none)
      (annual (ascii "2024")).stored [31]).1
    GivenBack .ofTable later (payload (downloadOf (annual (ascii "2024"))))
        (annual (ascii "2024")).stored [31] ∧
      FailsOnlyRefused .ofTable later (payload (downloadOf (annual (ascii "2024")))) := by
  obtain ⟨hrow, hgiven⟩ := download_of_upload_iff .ofTable ⟨true, true⟩ (fun _ ↦ none)
    (uploadedBy_uploadOf annual_carried_2024 [31]) (annual_stored [31]) rfl
    (List.forall_mem_nil _) (run_nil _) (downloadedBy_downloadOf annual_carried_2024)
  exact (hgiven (hrow annual_carried_2024.safe.stored (List.forall_mem_nil _))).mpr
    ⟨by decide, by decide⟩

/-- Two documents that are uploaded with success and not given back: the text `"FAIL"` is taken for
the answer of a query that failed, and an empty document for no answer. -/
theorem documents_not_given_back :
    (∃ later reply,
      dealMessage .ofTable ⟨true, true⟩ (fun _ ↦ none)
          (payload (uploadOf (annual (ascii "2024")) (ascii "FAIL"))) = .ok (later, .reply reply) ∧
        reply.body = ascii "SUCC" ∧
        (dealMessage .ofTable ⟨true, true⟩ later
            (payload (downloadOf (annual (ascii "2024"))))).map Prod.snd =
          .ok (.reply ⟨ascii "RSDPJ", ascii "TXT", ascii "ann", ascii "202", ascii "B",
            ascii "FAIL"⟩)) ∧
      ∃ later reply,
        dealMessage .ofTable ⟨true, true⟩ (fun _ ↦ none)
            (payload (uploadOf (annual (ascii "2024")) [])) = .ok (later, .reply reply) ∧
          reply.body = ascii "SUCC" ∧
          (dealMessage .ofTable ⟨true, true⟩ later
            (payload (downloadOf (annual (ascii "2024"))))).map Prod.snd = .ok .silent := by
  have hanswer (body : Bytes) : (dealMessage .ofTable ⟨true, true⟩
      (mysqlInsert .ofTable ⟨true, true⟩ (fun _ ↦ none) (annual (ascii "2024")).stored body).1
      (payload (downloadOf (annual (ascii "2024"))))).map Prod.snd =
        .ok (downloadReply (annual (ascii "2024")).stored body) := by
    rw [dealMessage_of_downloadedBy _ _ _ (downloadedBy_downloadOf annual_carried_2024),
      if_pos rfl, Except.map, result_mysqlQuery _ _ _ annual_carried_2024.safe.stored,
      if_pos rfl, content_mysqlInsert _ _ _ annual_carried_2024.safe.stored, if_pos rfl,
      Function.update_self]
    rfl
  refine ⟨⟨_, _, annual_stored _, rfl, ?_⟩, ⟨_, _, annual_stored _, rfl, ?_⟩⟩
  · rw [hanswer]
    decide
  · rw [hanswer]
    decide

end TradeServers.LogTimeServer
