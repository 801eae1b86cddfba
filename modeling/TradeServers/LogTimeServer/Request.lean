import TradeServers.LogTimeServer.Codec

/-!
# How the log time server reads a header

`comServer::dealMessage` cuts the five header values out of a message with hand-copied code. Each
slot is cut at its first space, except that the slot of the key is cut where the slot of the user
name has its first space. `parseHeader_payload_eq_iff` says exactly which messages survive
`send` and this parser.
-/

set_option autoImplicit false
set_option relaxedAutoImplicit false

namespace TradeServers.LogTimeServer

open DelimitedStream PaddedField

/-! ### The parser -/

/-- The value of a slot. The comparison `find(' ') > 0` is unsigned, so it also holds for `npos`;
the slot is then cut where `searched` has its first space. -/
def cutSlot (slotBuf searched : Bytes) : Bytes :=
  if 0 < find slotBuf [space] then substr slotBuf 0 (find searched [space]) else slotBuf

/-- The header parsing of `comServer::dealMessage`, for a message of at least `headerLen` bytes. -/
def parseHeader (msg : Bytes) : Message :=
  let cmdBuf := substr msg 0 8
  let formatBuf := substr msg 8 4
  let userNameBuf := substr msg 12 32
  let keyBuf := substr msg 44 4
  { cmd := cutSlot cmdBuf cmdBuf
    format := cutSlot formatBuf formatBuf
    userName := cutSlot userNameBuf userNameBuf
    -- the key is cut by the user name's slot
    key := cutSlot keyBuf userNameBuf
    side := substr msg 48 1
    body := msg.drop headerLen }

/-- No header value contains the padding byte. -/
structure Message.Unpadded (message : Message) : Prop where
  cmd : space ∉ message.cmd
  format : space ∉ message.format
  userName : space ∉ message.userName
  key : space ∉ message.key
  side : space ∉ message.side

/-! ### Slots of a payload -/

theorem substr_head {slot : Bytes} {width : ℕ} (hwidth : slot.length = width) (after : Bytes) :
    substr (slot ++ after) 0 width = slot := by
  unfold substr
  rw [List.drop_zero, ← hwidth, List.take_left]

theorem substr_skip {before : Bytes} {width : ℕ} (hwidth : before.length = width) (after : Bytes)
    (offset count : ℕ) :
    substr (before ++ after) (width + offset) count = substr after offset count := by
  unfold substr
  rw [← hwidth, ← List.drop_drop, List.drop_left]

/-- The slots of a header, and what stands behind it, are found at their offsets. -/
theorem substr_slotsOver {message : Message} (filler : UInt8) (hfits : message.Fits)
    (rest : Bytes) :
    substr (slotsOver filler message ++ rest) 0 8 = pad 8 filler message.cmd ∧
      substr (slotsOver filler message ++ rest) 8 4 = pad 4 filler message.format ∧
      substr (slotsOver filler message ++ rest) 12 32 = pad 32 filler message.userName ∧
      substr (slotsOver filler message ++ rest) 44 4 = pad 4 filler message.key ∧
      substr (slotsOver filler message ++ rest) 48 1 = pad 1 filler message.side ∧
      (slotsOver filler message ++ rest).drop headerLen = rest := by
  have h8 : (pad 8 filler message.cmd).length = 8 := length_pad hfits.cmd
  have h4 : (pad 4 filler message.format).length = 4 := length_pad hfits.format
  have h32 : (pad 32 filler message.userName).length = 32 := length_pad hfits.userName
  have hk : (pad 4 filler message.key).length = 4 := length_pad hfits.key
  have h1 : (pad 1 filler message.side).length = 1 := length_pad hfits.side
  have hslots : slotsOver filler message ++ rest = pad 8 filler message.cmd ++
      (pad 4 filler message.format ++ (pad 32 filler message.userName ++
        (pad 4 filler message.key ++ (pad 1 filler message.side ++ rest)))) := by
    simp only [slotsOver, List.append_assoc]
  have hcmd : substr (slotsOver filler message ++ rest) 0 8 = pad 8 filler message.cmd := by
    rw [hslots, substr_head h8]
  have hformat : substr (slotsOver filler message ++ rest) (8 + 0) 4 =
      pad 4 filler message.format := by
    rw [hslots, substr_skip h8, substr_head h4]
  have huserName : substr (slotsOver filler message ++ rest) (8 + (4 + 0)) 32 =
      pad 32 filler message.userName := by
    rw [hslots, substr_skip h8, substr_skip h4, substr_head h32]
  have hkey : substr (slotsOver filler message ++ rest) (8 + (4 + (32 + 0))) 4 =
      pad 4 filler message.key := by
    rw [hslots, substr_skip h8, substr_skip h4, substr_skip h32, substr_head hk]
  have hside : substr (slotsOver filler message ++ rest) (8 + (4 + (32 + (4 + 0)))) 1 =
      pad 1 filler message.side := by
    rw [hslots, substr_skip h8, substr_skip h4, substr_skip h32, substr_skip hk, substr_head h1]
  refine ⟨hcmd, hformat, huserName, hkey, hside, ?_⟩
  rw [← length_slotsOver filler hfits, List.drop_left]

/-- What the parser makes of a payload: the padded slots, cut. -/
theorem parseHeader_payload {message : Message} (hfits : message.Fits) :
    parseHeader (payload message) =
      { cmd := cutSlot (pad 8 space message.cmd) (pad 8 space message.cmd)
        format := cutSlot (pad 4 space message.format) (pad 4 space message.format)
        userName := cutSlot (pad 32 space message.userName) (pad 32 space message.userName)
        key := cutSlot (pad 4 space message.key) (pad 32 space message.userName)
        side := pad 1 space message.side
        body := message.body } := by
  have hpayload : payload message = slotsOver space message ++ message.body :=
    congrArg (· ++ message.body) (header_of_fits hfits)
  obtain ⟨hcmd, hformat, huserName, hkey, hside, hbody⟩ :=
    substr_slotsOver space hfits message.body
  unfold parseHeader
  rw [hpayload, hcmd, hformat, huserName, hkey, hside, hbody]

/-! ### Cutting a padded slot -/

/-- An empty value leaves its slot as it is: the search finds position 0. -/
theorem cutSlot_pad_nil {width : ℕ} (hwidth : 0 < width) (searched : Bytes) :
    cutSlot (pad width space []) searched = pad width space [] := by
  have hfind : find (pad width space []) [space] = 0 := by
    rw [find_pad List.not_mem_nil (Nat.zero_le _), List.length_nil, if_pos hwidth]
  rw [cutSlot, hfind, if_neg (lt_irrefl 0)]

/-- A nonempty value is cut where the searched slot has its first space. -/
theorem cutSlot_pad {width : ℕ} {value : Bytes} (habsent : space ∉ value)
    (hfit : value.length ≤ width) (hne : value ≠ []) (searched : Bytes) :
    cutSlot (pad width space value) searched =
      (pad width space value).take (find searched [space]) := by
  have hpos : 0 < find (pad width space value) [space] := by
    rw [find_pad habsent hfit]
    split_ifs
    · exact List.length_pos_iff.mpr hne
    · decide
  rw [cutSlot, if_pos hpos, substr, List.drop_zero]

/-- A slot cut at its own first space gives back its value unless that is empty. -/
theorem cutSlot_self_eq_iff {width : ℕ} {value : Bytes} (hwidth : 0 < width)
    (hnpos : width ≤ npos) (habsent : space ∉ value) (hfit : value.length ≤ width) :
    cutSlot (pad width space value) (pad width space value) = value ↔ value ≠ [] :=
  cutAt_pad_eq_iff hwidth hnpos habsent hfit

/-- The slot of the key, cut at the first space of the user name's slot, gives back the key when
the key is as long as the user name, or fills its slot beside a longer user name. -/
theorem cutSlot_key_eq_iff {key userName : Bytes} (habsent : space ∉ key)
    (hfit : key.length ≤ 4) (habsentUser : space ∉ userName) (hfitUser : userName.length ≤ 32)
    (hne : userName ≠ []) :
    cutSlot (pad 4 space key) (pad 32 space userName) = key ↔
      key.length = min userName.length 4 := by
  have hpos : 0 < userName.length := List.length_pos_iff.mpr hne
  rcases eq_or_ne key [] with rfl | hkey
  · rw [cutSlot_pad_nil (by decide), pad_nil, List.replicate_eq_nil_iff, List.length_nil]
    omega
  · rw [cutSlot_pad habsent hfit hkey, take_pad_eq_iff hfit, find_pad habsentUser hfitUser]
    split_ifs with hshort
    · rfl
    · unfold npos
      omega

theorem pad_side_eq_iff {side : Bytes} (hfit : side.length ≤ 1) :
    pad 1 space side = side ↔ side ≠ [] := by
  constructor
  · rintro hpad rfl
    cases hpad
  · intro hne
    have hpos : 0 < side.length := List.length_pos_iff.mpr hne
    exact pad_of_length_eq (by omega)

/-! ### The round trip -/

/-- The condition under which the parser recovers what `send` was given. -/
structure Message.Recoverable (message : Message) : Prop where
  cmd : message.cmd ≠ []
  format : message.format ≠ []
  userName : message.userName ≠ []
  side : message.side ≠ []
  key : message.key.length = min message.userName.length 4

/-- Parsing the payload of a message gives back the message exactly when no value is empty and the
key is as long as the user name allows: of one, two or three bytes beside a user name of the same
length, of four bytes beside a longer one. -/
theorem parseHeader_payload_eq_iff (message : Message) (hfits : message.Fits)
    (hunpadded : message.Unpadded) :
    parseHeader (payload message) = message ↔ message.Recoverable := by
  have hcmd := cutSlot_self_eq_iff (by decide) (by decide) hunpadded.cmd hfits.cmd
  have hformat := cutSlot_self_eq_iff (by decide) (by decide) hunpadded.format hfits.format
  have huserName :=
    cutSlot_self_eq_iff (by decide) (by decide) hunpadded.userName hfits.userName
  have hkey := cutSlot_key_eq_iff hunpadded.key hfits.key hunpadded.userName hfits.userName
  have hside := pad_side_eq_iff hfits.side
  rw [parseHeader_payload hfits, Message.ext_iff]
  constructor
  · rintro ⟨ecmd, eformat, euserName, ekey, eside, -⟩
    have hne := huserName.mp euserName
    exact ⟨hcmd.mp ecmd, hformat.mp eformat, hne, hside.mp eside, (hkey hne).mp ekey⟩
  · rintro ⟨ncmd, nformat, nuserName, nside, nkey⟩
    exact ⟨hcmd.mpr ncmd, hformat.mpr nformat, huserName.mpr nuserName,
      (hkey nuserName).mpr nkey, hside.mpr nside, rfl⟩

/-- An upload whose key is as long as its slot, beside a longer user name. -/
def recoverableUpload : Message where
  cmd := ascii "RQUPJ"
  format := ascii "GZIP"
  userName := ascii "trader7"
  key := ascii "2024"
  side := ascii "B"
  body := [31, 139, 8]

theorem parseHeader_recoverableUpload :
    parseHeader (payload recoverableUpload) = recoverableUpload ↔
      recoverableUpload.Recoverable :=
  parseHeader_payload_eq_iff recoverableUpload
    ⟨by decide, by decide, by decide, by decide, by decide⟩
    ⟨by decide, by decide, by decide, by decide, by decide⟩

/-- The same upload for the user `"ann"`. -/
def truncatedUpload : Message := { recoverableUpload with userName := ascii "ann" }

/-- The key of this upload loses its last byte, although every value fits its slot. -/
theorem parseHeader_truncatedUpload :
    truncatedUpload.Fits ∧ truncatedUpload.Unpadded ∧
      (parseHeader (payload truncatedUpload)).key = ascii "202" ∧
      parseHeader (payload truncatedUpload) ≠ truncatedUpload :=
  ⟨⟨by decide, by decide, by decide, by decide, by decide⟩,
    ⟨by decide, by decide, by decide, by decide, by decide⟩, by decide, by decide⟩

end TradeServers.LogTimeServer
