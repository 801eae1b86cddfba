import TradeServers.LogTimeServer.Request

/-!
# The client's codec beside the server's

The client of `Client_Delimiter` and the log time server share the layout of `Header`. The client
fills its headers over NUL bytes and cuts at NUL, the server fills over spaces and cuts at spaces.
Each side therefore takes the padding of the other one for a part of the value, and a value passes
only when it fills its slot (`headers_interoperate_iff`).
-/

set_option autoImplicit false
set_option relaxedAutoImplicit false

namespace TradeServers.ClientDelimiter

open LogTimeServer PaddedField

/-! ### The client's codec -/

/-- The bytes that `LengthHeaderCodec::send` of the client puts in front of the delimiter, if it
sends at all. `gzCompress` is given the source and the size of its destination, and returns its
result with what it left in the destination; an upload that it cannot compress is not sent. -/
def packet (gzCompress : Bytes → ℤ → ℤ × Bytes) (message : Message) : Option Bytes :=
  let head := headerOver 0 message
  if message.cmd = ascii "RQUPJ" then
    let bodySize := toInt32 message.body.length
    let compressed := gzCompress message.body (addInt32 bodySize bodySize)
    if compressed.1 ≤ 0 then none
    else some (head ++ compressed.2.take compressed.1.toNat)
  else if message.cmd = ascii "HBET" then some (head ++ message.cmd ++ message.body)
  else some head

/-- What `ChatClient::dealMessage` cuts out of a message of at least `headerLen` bytes. -/
@[ext]
structure Reply where
  cmd : Bytes
  format : Bytes
  userName : Bytes
  body : Bytes
deriving DecidableEq

/-- The header parsing of `ChatClient::dealMessage`. -/
def parseReply (msg : Bytes) : Reply where
  cmd := cutAt 0 (substr msg 0 8)
  format := cutAt 0 (substr msg 8 4)
  userName := cutAt 0 (substr msg 12 32)
  body := msg.drop headerLen

/-- Whatever the client sends starts with its header. -/
theorem packet_eq_header {gzCompress : Bytes → ℤ → ℤ × Bytes} {message : Message} {frame : Bytes}
    (hsent : packet gzCompress message = some frame) :
    ∃ rest, frame = headerOver 0 message ++ rest := by
  unfold packet at hsent
  dsimp only at hsent
  split_ifs at hsent
  · exact ⟨_, (Option.some.inj hsent).symm⟩
  · exact ⟨_, (Option.some.inj hsent).symm.trans (List.append_assoc _ _ _)⟩
  · exact ⟨[], (Option.some.inj hsent).symm.trans (List.append_nil _).symm⟩

/-! ### Headers between the two programs -/

/-- The five values of a header. -/
def headerValues (message : Message) : List Bytes :=
  [message.cmd, message.format, message.userName, message.key, message.side]

/-- Header values that mean the same to both programs: nonempty, without spaces and NUL bytes, and
no longer than their slots. -/
structure Plain (message : Message) : Prop where
  fits : message.Fits
  values : ∀ value ∈ headerValues message, value ≠ [] ∧ space ∉ value ∧ 0 ∉ value

/-- Two messages have the same header values. -/
def SameHeader (first second : Message) : Prop := headerValues first = headerValues second

/-- The server cuts a request of the client where nothing was padded with spaces. -/
theorem parseHeader_request_iff {request : Message} (hplain : Plain request) (rest : Bytes) :
    SameHeader (parseHeader (headerOver 0 request ++ rest)) request ↔
      request.cmd.length = 8 ∧ request.format.length = 4 ∧ request.userName.length = 32 ∧
        request.key.length = 4 := by
  obtain ⟨hfits, hvalues⟩ := hplain
  simp only [headerValues, List.forall_mem_cons, List.not_mem_nil, false_implies, implies_true,
    and_true] at hvalues
  obtain ⟨⟨-, hcmd, -⟩, ⟨-, hformat, -⟩, ⟨-, huserName, -⟩, ⟨-, hkey, -⟩, hside, -⟩ := hvalues
  have hcut {width : ℕ} {value : Bytes} (hnpos : width ≤ npos) (habsent : space ∉ value)
      (hfit : value.length ≤ width) :
      cutSlot (pad width 0 value) (pad width 0 value) = value ↔ value.length = width :=
    cutAt_pad_other_eq_iff (by decide) hnpos habsent hfit
  -- the slot of the key is taken whole as well, since the user name's slot has no space either
  have hkeyCut : cutSlot (pad 4 0 request.key) (pad 32 0 request.userName) = request.key ↔
      request.key.length = 4 := by
    have hslot : space ∉ pad 4 0 request.key := not_mem_pad (by decide) hkey
    have hsearched : space ∉ pad 32 0 request.userName := not_mem_pad (by decide) huserName
    rw [cutSlot, find_of_not_mem hslot, find_of_not_mem hsearched, if_pos (by decide), substr,
      List.drop_zero, List.take_of_length_le (by rw [length_pad hfits.key]; decide),
      pad_eq_self_iff hfits.key]
  have hsidePad : pad 1 0 request.side = request.side := by
    have hpos : 0 < request.side.length := List.length_pos_iff.mpr hside
    have hfit := hfits.side
    exact pad_of_length_eq (by omega)
  obtain ⟨ecmd, eformat, euserName, ekey, eside, -⟩ := substr_slotsOver 0 hfits rest
  rw [headerOver_of_fits 0 hfits, SameHeader, headerValues, headerValues, parseHeader, ecmd,
    eformat, euserName, ekey, eside, hsidePad]
  simp only [List.cons.injEq, and_true, hcut (by decide) hcmd hfits.cmd,
    hcut (by decide) hformat hfits.format, hcut (by decide) huserName hfits.userName, hkeyCut]

/-- The client cuts a reply of the server where nothing was padded with NUL bytes. -/
theorem parseReply_payload_iff {reply : Message} (hplain : Plain reply) :
    parseReply (payload reply) = ⟨reply.cmd, reply.format, reply.userName, reply.body⟩ ↔
      reply.cmd.length = 8 ∧ reply.format.length = 4 ∧ reply.userName.length = 32 := by
  obtain ⟨hfits, hvalues⟩ := hplain
  simp only [headerValues, List.forall_mem_cons, List.not_mem_nil, false_implies, implies_true,
    and_true] at hvalues
  obtain ⟨⟨-, -, hcmd⟩, ⟨-, -, hformat⟩, ⟨-, -, huserName⟩, -⟩ := hvalues
  have hcut {width : ℕ} {value : Bytes} (hnpos : width ≤ npos) (habsent : 0 ∉ value)
      (hfit : value.length ≤ width) :
      cutAt 0 (pad width space value) = value ↔ value.length = width :=
    cutAt_pad_other_eq_iff (by decide) hnpos habsent hfit
  have hpayload : payload reply = slotsOver space reply ++ reply.body :=
    congrArg (· ++ reply.body) (header_of_fits hfits)
  obtain ⟨ecmd, eformat, euserName, -, -, ebody⟩ := substr_slotsOver space hfits reply.body
  rw [parseReply, hpayload, ecmd, eformat, euserName, ebody]
  simp only [Reply.mk.injEq, and_true, hcut (by decide) hcmd hfits.cmd,
    hcut (by decide) hformat hfits.format, hcut (by decide) huserName hfits.userName]

/-- A request of the client gets through to the server exactly when its command, format, user name
and key fill their slots, and a reply of the server gets through to the client exactly when its
command, format and user name do. -/
theorem headers_interoperate_iff (gzCompress : Bytes → ℤ → ℤ × Bytes) {request reply : Message}
    {frame : Bytes} (hrequest : Plain request) (hsent : packet gzCompress request = some frame)
    (hreply : Plain reply) :
    (SameHeader (parseHeader frame) request ↔
        request.cmd.length = 8 ∧ request.format.length = 4 ∧ request.userName.length = 32 ∧
          request.key.length = 4) ∧
      (parseReply (payload reply) = ⟨reply.cmd, reply.format, reply.userName, reply.body⟩ ↔
        reply.cmd.length = 8 ∧ reply.format.length = 4 ∧ reply.userName.length = 32) := by
  obtain ⟨rest, rfl⟩ := packet_eq_header hsent
  exact ⟨parseHeader_request_iff hrequest rest, parseReply_payload_iff hreply⟩

/-- A download of the user `"chaoyuebro"`. -/
def annualRequest : Message where
  cmd := ascii "RQDPJ"
  format := ascii "GZIP"
  userName := ascii "chaoyuebro"
  key := ascii "2024"
  side := ascii "B"
  body := []

/-- The reply to it. -/
def annualReply : Message := { annualRequest with cmd := ascii "RSDPJ", body := [31, 139, 8] }

theorem annual_plain : Plain annualRequest ∧ Plain annualReply :=
  ⟨⟨⟨by decide, by decide, by decide, by decide, by decide⟩, by decide⟩,
    ⟨⟨by decide, by decide, by decide, by decide, by decide⟩, by decide⟩⟩

theorem annual_headers_interoperate :
    (SameHeader (parseHeader (headerOver 0 annualRequest)) annualRequest ↔
        annualRequest.cmd.length = 8 ∧ annualRequest.format.length = 4 ∧
          annualRequest.userName.length = 32 ∧ annualRequest.key.length = 4) ∧
      (parseReply (payload annualReply) = ⟨ascii "RSDPJ", ascii "GZIP", ascii "chaoyuebro",
          [31, 139, 8]⟩ ↔
        annualReply.cmd.length = 8 ∧ annualReply.format.length = 4 ∧
          annualReply.userName.length = 32) :=
  headers_interoperate_iff (fun _ _ ↦ (-1, [])) annual_plain.1 rfl annual_plain.2

/-- Both directions fail for it: the command arrives with the padding of the sender. -/
theorem annual_headers_altered :
    Plain annualRequest ∧ Plain annualReply ∧
      (parseHeader (headerOver 0 annualRequest)).cmd = ascii "RQDPJ" ++ [0, 0, 0] ∧
      (parseReply (payload annualReply)).cmd = ascii "RSDPJ" ++ [space, space, space] :=
  ⟨annual_plain.1, annual_plain.2, by decide, by decide⟩

end TradeServers.ClientDelimiter
