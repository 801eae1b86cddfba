import TradeServers.QuoteClient.Lines
import TradeServers.LengthHeader

/-!
# Quote packets

`loopSend` gives the fields of a result to `LengthHeaderCodec::send` of the quote client, which
packs the names into the slots of `hq_packet_t` and puts a `front_packet_t` in front. The parameters
of `send` are named after another message, and the slots after other fields than they are given.
`quote_packets` says what the client `quote_client_testLGIN` makes of the stream.

The size of a packet is written as 32 bits, and the size of a `StringPiece` is an `int`:
`truncated_result_delivered` is a run whose last result has more than 2³² bytes.
-/

set_option autoImplicit false
set_option relaxedAutoImplicit false

namespace TradeServers.QuoteClient

open LogTimeServer (NetBuffer)
open LengthHeader LengthPrefixed PaddedField

/-! ### The sender -/

/-- `sizeof(hq_packet_t)`, which is `packetLen` in the client. -/
def packetLen : ℕ := 20

/-- `sizeof(front_packet_t)`, which is `frontLen` in the client. -/
def frontLen : ℕ := 9

/-- `memcpy` into `hq_packet_t`, if it stays inside. -/
def copyInto (packet : Bytes) (offset : ℕ) (source : Bytes) : Option Bytes :=
  if offset + source.length ≤ packetLen then some (memcpy packet offset source) else none

/-- The `hq_packet_t` of three names, in the slots `exchange`, `comodity` and `contractNo`. -/
def hqPacket (cmd format body : Bytes) : Option Bytes := do
  let packet := List.replicate packetLen 0
  let packet ← copyInto packet 0 (← pieceBytes cmd)
  let packet ← copyInto packet 8 (← pieceBytes format)
  copyInto packet 12 (← pieceBytes body)

/-- The packed `front_packet_t` with `cmd` 6 and `reqid` 0, and the size as `htonl` writes it. -/
def frontPacket (size : ℕ) : Bytes := [6] ++ List.replicate 4 0 ++ hostToNetwork32 size

/-- `strcpy` of the data of a piece to a slot over NUL bytes, if it stays inside. -/
def strcpy (width : ℕ) (source : Bytes) : Option Bytes :=
  if (cString source).length < width then some (pad width 0 (cString source)) else none

section Codec

variable {β : Type} (net : NetBuffer β)

/-- `LengthHeaderCodec::send` of the quote client: the buffer it hands to the connection. -/
def send (cmd format body resStr : Bytes) : Option β := do
  let buf := net.empty
  if cmd = ascii "LGIN" then
    let buf := net.append buf ((← strcpy 8 cmd) ++ (← strcpy 4 format))
    let buf := net.append buf (← pieceBytes body)
    return net.append buf (ascii "@%&)")
  else
    let packet ← hqPacket cmd format body
    let buf := net.append buf (frontPacket (packetLen + toSize (pieceSize resStr)))
    let buf := net.append buf packet
    return net.append buf (← pieceBytes resStr)

/-- `loopSend` sends a result. -/
def sendResult (res : ResStruct) : Option β :=
  send net res.comodity res.contractNo res.exchange res.resStr

/-- The bytes that a sequence of results puts on the wire. -/
def wire (results : List ResStruct) : Option Bytes :=
  (results.mapM (sendResult net)).map (List.flatMap net.content)

end Codec

/-! ### The receiver -/

/-- The header as `onMessage` of `quote_client_testLGIN` reads it. The sum `len+frontLen` is an
`int`. -/
def frontLayout : Layout where
  size := frontLen
  lengthOffset := 5
  frameSize := fun len ↦ toSize (addInt32 len frontLen)
  room := by decide
  frameSize_eq := by
    intro len hlow hhigh
    unfold frontLen
    rw [addInt32_of_bounds (by omega) (by omega)]
    unfold toSize
    omega

/-- What `quoteClient::onStringMessage` of `quote_client_testLGIN` prints. -/
@[ext]
structure Quote where
  cmd : Bytes
  format : Bytes
  contractNo : Bytes
  body : Bytes
deriving DecidableEq

/-- `quoteClient::onStringMessage` of `quote_client_testLGIN`. -/
def quoteOfMessage (message : Bytes) : Option Quote :=
  if packetLen ≤ message.length then
    some
      { cmd := cutAt 0 (substr message 0 8)
        format := cutAt 0 (substr message 8 4)
        contractNo := cutAt 0 (substr message 12 8)
        body := message.drop packetLen }
  else none

/-- The quotes that the client prints when the chunks of a stream arrive. -/
def receivedQuotes {β : Type} (net : NetBuffer β) (chunks : List Bytes) : List Quote :=
  (receive net frontLayout (.start net) chunks).1.filterMap quoteOfMessage

/-! ### Packets -/

/-- Names that `send` can pack: nonempty, without NUL, and no longer than their slots. -/
structure Packable (first second third : Bytes) : Prop where
  first : first ≠ [] ∧ 0 ∉ first ∧ first.length ≤ 8
  second : second ≠ [] ∧ 0 ∉ second ∧ second.length ≤ 4
  third : third ≠ [] ∧ 0 ∉ third ∧ third.length ≤ 8

/-- A slot gives back its name. -/
theorem cutAt_slot {width : ℕ} {value : Bytes} (hwidth : width ≤ 8)
    (hvalue : value ≠ [] ∧ 0 ∉ value ∧ value.length ≤ width) :
    cutAt 0 (pad width 0 value) = value := by
  obtain ⟨hne, hnul, hfit⟩ := hvalue
  have hpos : 0 < width := lt_of_lt_of_le (List.length_pos_iff.mpr hne) hfit
  exact (cutAt_pad_eq_iff hpos (hwidth.trans (by decide)) hnul hfit).mpr hne

/-- The slots of three names. -/
def slots (cmd format body : Bytes) : Bytes := pad 8 0 cmd ++ pad 4 0 format ++ pad 8 0 body

section Slots

variable {cmd format body : Bytes} (hcmd : cmd.length ≤ 8) (hformat : format.length ≤ 4)
  (hbody : body.length ≤ 8)

include hcmd hformat hbody

theorem length_slots : (slots cmd format body).length = packetLen := by
  simp only [slots, List.length_append, length_pad hcmd, length_pad hformat, length_pad hbody,
    packetLen]

/-- Names that fit their slots are packed side by side. -/
theorem hqPacket_eq : hqPacket cmd format body = some (slots cmd format body) := by
  have hblank : List.replicate packetLen (0 : UInt8) = [] ++ (List.replicate 8 0 ++
      (List.replicate 4 0 ++ (List.replicate 8 0 ++ []))) := rfl
  have h8 : ([] ++ pad 8 0 cmd : Bytes).length = 8 := length_pad hcmd
  have h12 : ([] ++ pad 8 0 cmd ++ pad 4 0 format : Bytes).length = 12 := by
    rw [List.length_append, h8, length_pad hformat]
  have h0 : ([] : Bytes).length = 0 := rfl
  unfold hqPacket
  rw [pieceBytes_of_lt (by omega), pieceBytes_of_lt (by omega), pieceBytes_of_lt (by omega)]
  dsimp only [Option.bind_eq_bind, Option.bind_some]
  unfold copyInto packetLen
  rw [if_pos (by omega), Option.bind_some, if_pos (by omega), Option.bind_some,
    if_pos (by omega), ← packetLen, hblank, LogTimeServer.memcpy_slot h0 hcmd,
    LogTimeServer.memcpy_slot h8 hformat, LogTimeServer.memcpy_slot h12 hbody, List.append_nil]
  rfl

end Slots

/-! ### Results on the wire -/

/-- A result that `send` can pack, which does not start with the login command. The size of its text
fits the `int` of a `StringPiece`. -/
structure Sendable where
  res : ResStruct
  packable : Packable res.comodity res.contractNo res.exchange
  notLogin : res.comodity ≠ ascii "LGIN"
  short : res.resStr.length < 2 ^ 31

/-- The names of a result in the slots `exchange`, `comodity` and `contractNo`, and its text. -/
def ResStruct.quote (res : ResStruct) : Quote :=
  ⟨res.comodity, res.contractNo, res.exchange, res.resStr⟩

/-- The bytes of the packet of a result. -/
def ResStruct.size (res : ResStruct) : ℕ := packetLen + res.resStr.length

/-- The message behind the `front_packet_t` of a result. -/
def ResStruct.message (res : ResStruct) : Bytes :=
  slots res.comodity res.contractNo res.exchange ++ res.resStr

namespace Sendable

variable (sent : Sendable)

theorem length_message : sent.res.message.length = sent.res.size := by
  obtain ⟨hfirst, hsecond, hthird⟩ := sent.packable
  unfold ResStruct.message ResStruct.size
  rw [List.length_append, length_slots hfirst.2.2 hsecond.2.2 hthird.2.2]

theorem len_frontPacket (size : ℕ) : frontLayout.len (frontPacket size) = toInt32 size := by
  have hfield : ((frontPacket size).drop frontLayout.lengthOffset).take 4 =
      hostToNetwork32 size := rfl
  unfold Layout.len
  rw [hfield, toInt32_networkToHost32]

/-- The frame of a result. -/
def frame : frontLayout.framing.Frame :=
  frontLayout.frame (frontPacket sent.res.size) sent.res.message rfl
    (by rw [len_frontPacket, sent.length_message])
    (by
      have hshort := sent.short
      rw [sent.length_message]
      unfold ResStruct.size packetLen
      omega)

theorem accepted_iff : sent.frame.Accepted ↔ sent.res.size ≤ 65536 := by
  rw [← sent.length_message]
  exact frontLayout.accepted_frame_iff _ _ _

/-- The client cuts the names out of their slots. -/
theorem quoteOfMessage_message : quoteOfMessage sent.res.message = some sent.res.quote := by
  obtain ⟨hfirst, hsecond, hthird⟩ := sent.packable
  have hslots := length_slots hfirst.2.2 hsecond.2.2 hthird.2.2
  have h8 : (pad 8 (0 : UInt8) sent.res.comodity).length = 8 := length_pad hfirst.2.2
  have h4 : (pad 4 (0 : UInt8) sent.res.contractNo).length = 4 := length_pad hsecond.2.2
  have hlast : (pad 8 (0 : UInt8) sent.res.exchange).length = 8 := length_pad hthird.2.2
  have hlength : packetLen ≤ sent.res.message.length := by
    rw [sent.length_message]
    exact Nat.le_add_right _ _
  unfold quoteOfMessage
  rw [if_pos hlength]
  unfold ResStruct.message ResStruct.quote
  congr 2
  · unfold slots substr
    rw [List.drop_zero, List.append_assoc, List.append_assoc, List.take_left' h8,
      cutAt_slot (by omega) hfirst]
  · unfold slots substr
    rw [List.append_assoc, List.append_assoc, List.drop_left' h8, List.take_left' h4,
      cutAt_slot (by omega) hsecond]
  · have hfront : (pad 8 (0 : UInt8) sent.res.comodity ++
        pad 4 0 sent.res.contractNo).length = 12 := by
      rw [List.length_append, h8, h4]
    unfold slots substr
    rw [List.append_assoc, List.drop_left' hfront, List.take_left' hlast,
      cutAt_slot (Nat.le_refl _) hthird]
  · exact List.drop_left' hslots

section Codec

variable {β : Type} (net : NetBuffer β)

/-- What `send` makes of a result is its frame. -/
theorem content_sendResult : (sendResult net sent.res).map net.content = some sent.frame.bytes := by
  obtain ⟨hfirst, hsecond, hthird⟩ := sent.packable
  have hsize : toSize (pieceSize sent.res.resStr) = sent.res.resStr.length := by
    have hshort := sent.short
    rw [pieceSize_of_lt hshort, toSize_natCast (by omega)]
  unfold sendResult send
  rw [if_neg sent.notLogin, hqPacket_eq hfirst.2.2 hsecond.2.2 hthird.2.2,
    pieceBytes_of_lt sent.short, hsize]
  dsimp only [Option.bind_eq_bind, Option.bind_some, Option.pure_def, Option.map_some]
  rw [net.content_append, net.content_append, net.content_append, net.content_empty,
    List.nil_append, List.append_assoc]
  rfl

theorem wire_eq (results : List Sendable) :
    wire net (results.map res) = some (Framing.wire (results.map frame)) := by
  unfold wire
  rw [List.mapM_map]
  exact wire_of_frames (content_sendResult · net) results

theorem filterMap_messages (results : List Sendable) :
    ((results.map frame).map Framing.Frame.message).filterMap quoteOfMessage =
      results.map fun sent ↦ sent.res.quote := by
  induction results with
  | nil => rfl
  | cons sent results ih =>
    rw [List.map_cons, List.map_cons, List.map_cons, ← ih]
    exact List.filterMap_cons_some sent.quoteOfMessage_message

/-- The quotes that the client prints are those of the messages that the reference cut takes out of
the stream. -/
theorem receivedQuotes_eq (chunks : List Bytes) :
    receivedQuotes net chunks =
      (frontLayout.framing.cut chunks.flatten).1.filterMap quoteOfMessage := by
  have hempty : (Connection.start net).held net = [] := net.content_empty
  have hshort : ∀ length,
      ¬ frontLayout.framing.Complete ((Connection.start net).held net) length :=
    fun length ↦ hempty ▸ Framing.not_complete_nil length
  unfold receivedQuotes
  rw [(receive_eq_cut hshort chunks).1, hempty, List.nil_append]

variable {results before after : List Sendable} {first : Sendable} {chunks : List Bytes}

theorem accepted_of_small (hsizes : ∀ sent ∈ results, sent.res.size ≤ 65536) :
    ∀ other ∈ results.map frame, other.Accepted := by
  rw [List.forall_mem_map]
  exact fun sent hsent ↦ sent.accepted_iff.mpr (hsizes sent hsent)

/-- Packets of at most 65536 bytes all arrive. -/
theorem receivedQuotes_of_small (hsizes : ∀ sent ∈ results, sent.res.size ≤ 65536)
    (hchunks : chunks.flatten = Framing.wire (results.map frame)) :
    receivedQuotes net chunks = results.map fun sent ↦ sent.res.quote := by
  have hcut := Framing.cut_wire_append (accepted_of_small hsizes) []
  rw [List.append_nil] at hcut
  rw [receivedQuotes_eq, hchunks, hcut, Framing.cut_of_not_complete Framing.not_complete_nil,
    List.append_nil]
  exact filterMap_messages results

/-- A larger packet stops the client. -/
theorem receivedQuotes_of_large (hsizes : ∀ sent ∈ before, sent.res.size ≤ 65536)
    (hlarge : 65536 < first.res.size)
    (hchunks : chunks.flatten = Framing.wire ((before ++ first :: after).map frame)) :
    receivedQuotes net chunks = before.map fun sent ↦ sent.res.quote := by
  have hcut := Framing.cut_wire_append (accepted_of_small hsizes)
    (Framing.wire ((first :: after).map frame))
  have hstuck := Framing.cut_of_not_complete (Framing.cut_of_first_stuck
    (List.prefix_refl (Framing.wire ((first :: after).map frame)))
    (.inl (mt first.accepted_iff.mp (Nat.not_le.mpr hlarge))))
  have happend : Framing.wire ((before ++ first :: after).map frame) =
      Framing.wire (before.map frame) ++ Framing.wire ((first :: after).map frame) := by
    rw [List.map_append]
    exact List.flatMap_append
  rw [receivedQuotes_eq, hchunks, happend, hcut, hstuck, List.append_nil]
  exact filterMap_messages before

end Codec

end Sendable

/-! ### Results of `dealMessage` -/

section Dealt

variable {Double : Type} {platform : Platform Double}

theorem names_of_round {worker next : Worker} {round : Round platform} {res : ResStruct}
    (hround : worker.round round = .ok (next, res)) :
    res.comodity = round.text.tick.comodity ∧ res.contractNo = round.text.tick.contractNo ∧
      res.exchange = round.text.tick.exchange := by
  unfold Worker.round at hround
  cases hparse : parseTick platform (tickText round.text.fields) with
  | error fault =>
    rw [hparse] at hround
    cases hround
  | ok tick =>
    rw [round.text.parse_of_nul (round.text.nul_of_parse hparse)] at hround
    obtain ⟨-, rfl⟩ := Prod.mk.inj (Except.ok.inj hround)
    exact ⟨rfl, rfl, rfl⟩

variable (platform)

/-- A result that `dealMessage` made of a tick with names that `send` can pack, which do not start
with the login command. The size of its text fits the `int` of a `StringPiece`. -/
structure Dealt where
  worker : Worker
  round : Round platform
  next : Worker
  res : ResStruct
  dealt : worker.round round = .ok (next, res)
  packable : Packable round.text.tick.comodity round.text.tick.contractNo round.text.tick.exchange
  notLogin : round.text.tick.comodity ≠ ascii "LGIN"
  short : res.resStr.length < 2 ^ 31

variable {platform}

/-- Field 1 in the slot `exchange`, field 2 in the slot `comodity`, field 3 in the slot
`contractNo`, and the text. -/
def Dealt.quote (dealt : Dealt platform) : Quote where
  cmd := dealt.round.text.tick.comodity
  format := dealt.round.text.tick.contractNo
  contractNo := dealt.round.text.tick.exchange
  body := dealt.res.resStr

/-- The result carries the names of its tick. -/
def Dealt.sendable (dealt : Dealt platform) : Sendable where
  res := dealt.res
  packable := by
    obtain ⟨hfirst, hsecond, hthird⟩ := names_of_round dealt.dealt
    rw [hfirst, hsecond, hthird]
    exact dealt.packable
  notLogin := by
    rw [(names_of_round dealt.dealt).1]
    exact dealt.notLogin
  short := dealt.short

theorem Dealt.quote_eq (dealt : Dealt platform) : dealt.quote = dealt.res.quote := by
  obtain ⟨hfirst, hsecond, hthird⟩ := names_of_round dealt.dealt
  unfold Dealt.quote ResStruct.quote
  rw [hfirst, hsecond, hthird]

/-- For any results and any chunks of their stream, the client prints exactly the quotes of the
results when all packets have at most 65536 bytes, and exactly those in front of the first larger
packet otherwise. -/
theorem quote_packets {β : Type} (net : NetBuffer β) (results : List (Dealt platform)) :
    ∃ stream, wire net (results.map Dealt.res) = some stream ∧
      ∀ chunks : List Bytes, chunks.flatten = stream →
        ((∀ dealt ∈ results, packetLen + dealt.res.resStr.length ≤ 65536) →
          receivedQuotes net chunks = results.map Dealt.quote) ∧
        ∀ before first after, results = before ++ first :: after →
          (∀ dealt ∈ before, packetLen + dealt.res.resStr.length ≤ 65536) →
          65536 < packetLen + first.res.resStr.length →
          receivedQuotes net chunks = before.map Dealt.quote := by
  have hquotes (part : List (Dealt platform)) :
      ((part.map Dealt.sendable).map fun sent ↦ sent.res.quote) = part.map Dealt.quote := by
    rw [List.map_map]
    exact List.map_congr_left fun dealt _ ↦ dealt.quote_eq.symm
  have hres : results.map Dealt.res = (results.map Dealt.sendable).map Sendable.res := by
    rw [List.map_map]
    rfl
  refine ⟨_, by rw [hres, Sendable.wire_eq], fun chunks hchunks ↦ ⟨fun hsizes ↦ ?_, ?_⟩⟩
  · rw [← hquotes]
    exact Sendable.receivedQuotes_of_small net (List.forall_mem_map.mpr hsizes) hchunks
  · rintro before first after rfl hsizes hlarge
    rw [List.map_append, List.map_cons] at hchunks
    rw [← hquotes]
    exact Sendable.receivedQuotes_of_large net (List.forall_mem_map.mpr hsizes)
      (show 65536 < first.sendable.res.size from hlarge) hchunks

end Dealt

/-! ### A backlog of words -/

/-- A word of a stream. -/
structure IsWord (word : Bytes) : Prop where
  nonempty : word ≠ []
  unspaced : ∀ byte ∈ word, isSpace byte = false

instance (word : Bytes) : Decidable (IsWord word) :=
  haveI : Decidable (∀ byte ∈ word, isSpace byte = false) := List.decidableBAll _ word
  decidable_of_iff (word ≠ [] ∧ ∀ byte ∈ word, isSpace byte = false)
    ⟨fun hboth ↦ ⟨hboth.1, hboth.2⟩, fun hword ↦ ⟨hword.nonempty, hword.unspaced⟩⟩

/-- Words with a space in front of each. -/
def spaced (words : List Bytes) : Bytes := words.flatMap (space :: ·)

section Words

variable {word previous rest : Bytes} {words : List Bytes}

theorem IsWord.append (hword : IsWord word) {more : Bytes} (hmore : IsWord more) :
    IsWord (word ++ more) :=
  ⟨List.append_ne_nil_of_left_ne_nil hword.nonempty _,
    List.forall_mem_append.mpr ⟨hword.unspaced, hmore.unspaced⟩⟩

/-- What is appended continues the last word up to its first space. -/
theorem spaced_append (words : List Bytes) (last more : Bytes) (rest : List Bytes) :
    spaced (words ++ [last]) ++ (more ++ spaced rest) =
      spaced (words ++ (last ++ more) :: rest) := by
  simp [spaced]

/-- The first word is read, with or without a space in front of it. -/
theorem readWord_spaced (hword : IsWord word) (words : List Bytes) (previous : Bytes) :
    readWord (word ++ spaced words) previous = (word, spaced words) ∧
      readWord (spaced (word :: words)) previous = (word, spaced words) := by
  have hall : ∀ byte ∈ word, (!isSpace byte) = true := by
    intro byte hbyte
    rw [hword.unspaced byte hbyte]
    rfl
  have hrest : (spaced words).takeWhile (fun byte ↦ !isSpace byte) = [] ∧
      (spaced words).dropWhile (fun byte ↦ !isSpace byte) = spaced words := by
    cases words with
    | nil => exact ⟨rfl, rfl⟩
    | cons other words => exact ⟨rfl, rfl⟩
  have hkeep : (word ++ spaced words).dropWhile isSpace = word ++ spaced words := by
    obtain ⟨byte, bytes, rfl⟩ := List.exists_cons_of_ne_nil hword.nonempty
    exact List.dropWhile_cons_of_neg (by simp [hword.unspaced byte List.mem_cons_self])
  have hskip : (spaced (word :: words)).dropWhile isSpace = word ++ spaced words := hkeep
  have hne : word ++ spaced words ≠ [] := List.append_ne_nil_of_left_ne_nil hword.nonempty _
  unfold readWord
  dsimp only
  rw [hkeep, hskip, if_neg hne, List.takeWhile_append_of_pos hall,
    List.dropWhile_append_of_pos hall, hrest.1, hrest.2, List.append_nil]
  exact ⟨rfl, rfl⟩

end Words

/-- The rounds of a worker that works alone: it finds `queueMap` as it left it. -/
def soloRounds {Double : Type} {platform : Platform Double} :
    QueueMap Double → List (TickText platform) → List (Round platform)
  | _, [] => []
  | queueMap, text :: texts =>
    ⟨text, queueMap⟩ :: soloRounds (updateWindows platform queueMap text.tick).1 texts

/-- When no NUL hides a field, the result of a round is the first word of what was left in the
stream and the line of the tick. -/
theorem round_of_nul {Double : Type} {platform : Platform Double} {text : TickText platform}
    (hnul : ∀ field ∈ text.fields.take 10, 0 ∉ field) (queueMap : QueueMap Double)
    (worker : Worker) : ∃ next res, worker.round ⟨text, queueMap⟩ = .ok (next, res) ∧
      (res.resStr, next.stream) =
        readWord (worker.stream ++ Round.line ⟨text, queueMap⟩) worker.resStr := by
  unfold Worker.round
  rw [text.parse_of_nul hnul]
  exact ⟨_, _, rfl, rfl⟩

/-- All prices in the windows are 1. -/
def AtOne (queueMap : QueueMap ℚ) : Prop :=
  ∀ str (window : Window), ∀ entry ∈ queueOf queueMap (str ++ [window.digit]), entry.2 = 1

section AtOne

variable {queueMap : QueueMap ℚ} {tick : Tick ℚ}

theorem atOne_pushTick (hone : AtOne queueMap) (hprice : tick.newPrice = 1) :
    AtOne (pushTick queueMap tick) := by
  intro str window entry hentry
  rw [queueOf_pushTick] at hentry
  split_ifs at hentry
  · rcases List.mem_append.mp hentry with hold | hnew
    · exact hone str window entry ((List.dropWhile_sublist _).subset hold)
    · rw [List.mem_singleton.mp hnew]
      exact hprice
  · exact hone str window entry hentry

theorem atOne_updateWindows (tick : Tick ℚ) (hone : AtOne queueMap) (hprice : tick.newPrice = 1) :
    AtOne (updateWindows Platform.exact queueMap tick).1 := by
  rw [updateWindows_eq]
  exact atOne_pushTick hone hprice

/-- A price that stays 1 does not change. -/
theorem changes_atOne (hone : AtOne queueMap) (hprice : tick.newPrice = 1) :
    (updateWindows Platform.exact queueMap tick).2 = ⟨0, 0, 0⟩ := by
  have hbase (window : Window) : basePrice (pushTick queueMap tick) tick window = 1 := by
    have hall := atOne_pushTick hone hprice tick.str window
    unfold basePrice Tick.key
    cases hqueue : queueOf (pushTick queueMap tick) (tick.str ++ [window.digit]) with
    | nil => exact hprice
    | cons entry queue =>
      rw [hqueue] at hall
      exact hall entry List.mem_cons_self
  have hchange : change Platform.exact 1 1 = 0 := by decide +kernel
  rw [updateWindows_eq]
  dsimp only
  rw [hbase, hbase, hbase, hprice, hchange]

end AtOne

/-- A tick of an instrument whose price is always 1. -/
def flatText (comodity : Bytes) (hcomodity : comodity ≠ [] ∧ bar ∉ comodity) :
    TickText Platform.exact where
  fields := [ascii "q", comodity, ascii "s09", ascii "DCE", ascii "1970-01-01 00:00:00",
    ascii "q", ascii "q", ascii "q", ascii "q", ascii "q", ascii "1"]
  long := Nat.le_of_eq rfl
  separate := by
    simp only [List.forall_mem_cons]
    exact ⟨by decide, hcomodity, by decide⟩
  newPrice := 1
  price_ne := cString_one_ne
  priced := exact_stod_one

/-- A tick whose line has three words. -/
def blankText : TickText Platform.exact := flatText (ascii "a b c") (by decide)

/-- A tick whose line is one word. -/
def wordText : TickText Platform.exact := flatText (ascii "c") (by decide)

/-- The line of the second tick, which is the last word of the line of the first. -/
def wordLine : Bytes := ascii "c|s09|DCE|0|0|0"

/-- The names in the results can be packed. -/
theorem packable_flat : Packable (ascii "a b c") (ascii "s09") (ascii "DCE") ∧
    Packable (ascii "c") (ascii "s09") (ascii "DCE") :=
  ⟨⟨by decide, by decide, by decide⟩, ⟨by decide, by decide, by decide⟩⟩

/-- A worker makes a result of the tick of one word that can be sent. -/
theorem exists_dealt_wordText : ∃ dealt : Dealt Platform.exact,
    dealt.quote = ⟨ascii "c", ascii "s09", ascii "DCE", wordLine⟩ := by
  have hline : (Worker.start.round ⟨wordText, fun _ ↦ none⟩).toOption.map
      (fun round ↦ round.2.resStr) = some wordLine := by
    decide +kernel
  obtain ⟨⟨next, res⟩, hround, hfound⟩ := Execution.exists_ok_of_toOption hline
  have hresStr : res.resStr = wordLine := hfound
  have hshort : res.resStr.length < 2 ^ 31 := by
    rw [hresStr]
    decide
  refine ⟨⟨_, _, next, res, hround, packable_flat.2, by decide, hshort⟩, ?_⟩
  rw [Dealt.quote, hresStr]
  rfl

/-- The client prints the quote of such a result, in whatever chunks its packet arrives. -/
theorem quote_packets_wordText : ∃ (dealt : Dealt Platform.exact) (stream : Bytes),
    wire .ofBytes [dealt.res] = some stream ∧
      ∀ chunks : List Bytes, chunks.flatten = stream →
        receivedQuotes .ofBytes chunks = [⟨ascii "c", ascii "s09", ascii "DCE", wordLine⟩] := by
  obtain ⟨dealt, hquote⟩ := exists_dealt_wordText
  obtain ⟨stream, hwire, hreceived⟩ := quote_packets .ofBytes [dealt]
  refine ⟨dealt, stream, hwire, fun chunks hchunks ↦ ?_⟩
  have hresStr : dealt.res.resStr = wordLine := congrArg Quote.body hquote
  rw [(hreceived chunks hchunks).1, List.map_singleton, hquote]
  rw [List.forall_mem_singleton, hresStr]
  decide

theorem line_flatText {comodity : Bytes} (hcomodity : comodity ≠ [] ∧ bar ∉ comodity)
    {queueMap : QueueMap ℚ} (hone : AtOne queueMap) :
    (⟨flatText comodity hcomodity, queueMap⟩ : Round Platform.exact).line =
      comodity ++ ascii "|s09|DCE|0|0|0" := by
  have hzero : Platform.exact.general 0 = ascii "0" := by decide +kernel
  unfold Round.line Round.changes
  dsimp only
  rw [changes_atOne hone rfl]
  unfold resLine
  rw [hzero]
  simp only [List.append_assoc]
  rfl

/-- Short words are left in the stream of a worker, as many as given in front of a last one. -/
def Backlog (worker : Worker) (count : ℕ) (last : Bytes) : Prop :=
  ∃ words, words.length = count ∧ (∀ word ∈ words, IsWord word ∧ word.length ≤ 16) ∧
    IsWord last ∧ worker.stream = spaced (words ++ [last])

/-- A short result of one of the two ticks. -/
structure Short (res : ResStruct) : Prop where
  comodity : res.comodity = ascii "a b c" ∨ res.comodity = ascii "c"
  contractNo : res.contractNo = ascii "s09"
  exchange : res.exchange = ascii "DCE"
  length : res.resStr.length ≤ 16

section Backlog

variable {worker : Worker} {count : ℕ} {last : Bytes} {queueMap : QueueMap ℚ}

/-- The names in the results of the two ticks. -/
theorem short_of_round {text : TickText Platform.exact} {next : Worker} {res : ResStruct}
    (htext : text = blankText ∨ text = wordText)
    (hround : worker.round ⟨text, queueMap⟩ = .ok (next, res)) (hlength : res.resStr.length ≤ 16) :
    Short res := by
  obtain ⟨hcomodity, hcontractNo, hexchange⟩ := names_of_round hround
  rcases htext with rfl | rfl
  · exact ⟨.inl hcomodity, hcontractNo, hexchange, hlength⟩
  · exact ⟨.inr hcomodity, hcontractNo, hexchange, hlength⟩

/-- A tick of three words: one word is read, and one more is left. -/
theorem round_blankText (hbacklog : Backlog worker count wordLine) (hone : AtOne queueMap) :
    ∃ next res, worker.round ⟨blankText, queueMap⟩ = .ok (next, res) ∧ Short res ∧
      Backlog next (count + 1) wordLine := by
  obtain ⟨words, rfl, hwords, hlast, hstream⟩ := hbacklog
  have hnul : ∀ field ∈ blankText.fields.take 10, (0 : UInt8) ∉ field := by decide
  obtain ⟨next, res, hround, hread⟩ := round_of_nul hnul queueMap worker
  have hline : Round.line ⟨blankText, queueMap⟩ = ascii "a" ++ spaced [ascii "b", wordLine] :=
    line_flatText _ hone
  rw [hstream, hline, spaced_append] at hread
  have hb : IsWord (ascii "b") ∧ (ascii "b").length ≤ 16 := by decide +kernel
  have hfirst : IsWord (wordLine ++ ascii "a") ∧ (wordLine ++ ascii "a").length ≤ 16 := by
    decide +kernel
  cases words with
  | nil =>
    rw [List.nil_append, (readWord_spaced hfirst.1 _ _).2] at hread
    obtain ⟨hres, hnext⟩ := Prod.mk.inj hread
    refine ⟨next, res, hround, short_of_round (.inl rfl) hround (hres ▸ hfirst.2),
      [ascii "b"], rfl, List.forall_mem_singleton.mpr hb, hlast, hnext⟩
  | cons word words =>
    obtain ⟨hword, hmore⟩ := List.forall_mem_cons.mp hwords
    rw [List.cons_append, (readWord_spaced hword.1 _ _).2] at hread
    obtain ⟨hres, hnext⟩ := Prod.mk.inj hread
    refine ⟨next, res, hround, short_of_round (.inl rfl) hround (hres ▸ hword.2),
      words ++ [wordLine ++ ascii "a", ascii "b"], by simp, ?_, hlast, ?_⟩
    · refine List.forall_mem_append.mpr ⟨hmore, ?_⟩
      exact List.forall_mem_cons.mpr ⟨hfirst, List.forall_mem_singleton.mpr hb⟩
    · rw [hnext, List.append_assoc]
      rfl

/-- A tick of one word continues the last word, and the first one is read. -/
theorem round_wordText (hbacklog : Backlog worker count last) (hone : AtOne queueMap) :
    ∃ next res, worker.round ⟨wordText, queueMap⟩ = .ok (next, res) ∧
      (count = 0 → res.resStr = last ++ wordLine) ∧
      ∀ fewer, count = fewer + 1 → Short res ∧ Backlog next fewer (last ++ wordLine) := by
  obtain ⟨words, rfl, hwords, hlast, hstream⟩ := hbacklog
  have hnul : ∀ field ∈ wordText.fields.take 10, (0 : UInt8) ∉ field := by decide
  obtain ⟨next, res, hround, hread⟩ := round_of_nul hnul queueMap worker
  have hline : Round.line ⟨wordText, queueMap⟩ = wordLine ++ spaced [] := line_flatText _ hone
  have hlonger : IsWord (last ++ wordLine) := hlast.append (by decide +kernel)
  rw [hstream, hline, spaced_append] at hread
  refine ⟨next, res, hround, ?_⟩
  cases words with
  | nil =>
    rw [List.nil_append, (readWord_spaced hlonger _ _).2] at hread
    exact ⟨fun _ ↦ congrArg Prod.fst hread, nofun⟩
  | cons word words =>
    obtain ⟨hword, hmore⟩ := List.forall_mem_cons.mp hwords
    rw [List.cons_append, (readWord_spaced hword.1 _ _).2] at hread
    obtain ⟨hres, hnext⟩ := Prod.mk.inj hread
    refine ⟨nofun, fun fewer hfewer ↦
      ⟨short_of_round (.inr rfl) hround (hres ▸ hword.2), words, ?_, hmore, hlonger, hnext⟩⟩
    exact Nat.succ.inj hfewer

/-- The last result of a run, and short results in front of it. -/
def EndsWith (worker : Worker) (rounds : List (Round Platform.exact)) (resStr : Bytes) : Prop :=
  ∃ before res, worker.results rounds = .ok (before ++ [res]) ∧ (∀ other ∈ before, Short other) ∧
    res.comodity = ascii "c" ∧ res.contractNo = ascii "s09" ∧ res.exchange = ascii "DCE" ∧
    res.resStr = resStr

theorem endsWith_cons {round : Round Platform.exact} {rounds : List (Round Platform.exact)}
    {next : Worker} {res : ResStruct} {resStr : Bytes}
    (hround : worker.round round = .ok (next, res)) (hshort : Short res)
    (hlater : EndsWith next rounds resStr) :
    EndsWith worker (round :: rounds) resStr := by
  obtain ⟨before, final, hresults, hbefore, hfinal⟩ := hlater
  refine ⟨res :: before, final, ?_, List.forall_mem_cons.mpr ⟨hshort, hbefore⟩, hfinal⟩
  rw [Worker.results, hround]
  dsimp only
  rw [hresults]
  rfl

/-- As many ticks of one word as there are words: they all stand in the last result. -/
theorem endsWith_words (count : ℕ) : ∀ (worker : Worker) (last : Bytes) (queueMap : QueueMap ℚ),
    Backlog worker count last → AtOne queueMap →
      EndsWith worker (soloRounds queueMap (List.replicate (count + 1) wordText))
        (last ++ (List.replicate (count + 1) wordLine).flatten) := by
  induction count with
  | zero =>
    intro worker last queueMap hbacklog hone
    obtain ⟨next, res, hround, hres, -⟩ := round_wordText hbacklog hone
    obtain ⟨hcomodity, hcontractNo, hexchange⟩ := names_of_round hround
    refine ⟨[], res, ?_, List.forall_mem_nil _, hcomodity, hcontractNo, hexchange, ?_⟩
    · change Worker.results worker [⟨wordText, queueMap⟩] = _
      rw [Worker.results, hround]
      rfl
    · rw [hres rfl]
      rfl
  | succ count ih =>
    intro worker last queueMap hbacklog hone
    obtain ⟨next, res, hround, -, hmore⟩ := round_wordText hbacklog hone
    obtain ⟨hshort, hnext⟩ := hmore count rfl
    have hlater := ih next _ _ hnext (atOne_updateWindows wordText.tick hone rfl)
    rw [List.append_assoc] at hlater
    exact endsWith_cons hround hshort hlater

/-- Ticks of three words, and then as many of one word as there are words. -/
theorem endsWith_backlog (more : ℕ) : ∀ (worker : Worker) (count : ℕ) (queueMap : QueueMap ℚ),
    Backlog worker count wordLine → AtOne queueMap →
      EndsWith worker (soloRounds queueMap
          (List.replicate more blankText ++ List.replicate (count + more + 1) wordText))
        (wordLine ++ (List.replicate (count + more + 1) wordLine).flatten) := by
  induction more with
  | zero => exact fun worker count queueMap ↦ endsWith_words count worker wordLine queueMap
  | succ more ih =>
    intro worker count queueMap hbacklog hone
    obtain ⟨next, res, hround, hshort, hnext⟩ := round_blankText hbacklog hone
    have hlater := ih next (count + 1) _ hnext (atOne_updateWindows blankText.tick hone rfl)
    rw [Nat.add_right_comm count 1 more] at hlater
    exact endsWith_cons hround hshort hlater

/-- The ticks of a worker that first deals with ticks of three words, and then with one more tick of
one word. -/
def backlogTexts (count : ℕ) : List (TickText Platform.exact) :=
  List.replicate (count + 1) blankText ++ List.replicate (count + 2) wordText

/-- The last result of such a worker contains all lines of the ticks of one word. -/
theorem endsWith_backlogTexts (count : ℕ) :
    EndsWith Worker.start (soloRounds (fun _ ↦ none) (backlogTexts count))
      (List.replicate (count + 3) wordLine).flatten := by
  have hone : AtOne fun _ ↦ none := fun _ _ _ hentry ↦ absurd hentry List.not_mem_nil
  have hnul : ∀ field ∈ blankText.fields.take 10, (0 : UInt8) ∉ field := by decide
  obtain ⟨next, res, hround, hread⟩ := round_of_nul hnul (fun _ ↦ none) Worker.start
  have hline : Round.line ⟨blankText, fun _ ↦ none⟩ = ascii "a" ++ spaced [ascii "b", wordLine] :=
    line_flatText _ hone
  have ha : IsWord (ascii "a") := by decide +kernel
  have hb : IsWord (ascii "b") ∧ (ascii "b").length ≤ 16 := by decide +kernel
  rw [hline, show Worker.start.stream = [] from rfl, List.nil_append,
    (readWord_spaced ha _ _).1] at hread
  obtain ⟨hres, hnext⟩ := Prod.mk.inj hread
  have hshort : Short res := short_of_round (.inl rfl) hround (by rw [hres]; decide)
  have hbacklog : Backlog next 1 wordLine :=
    ⟨[ascii "b"], rfl, List.forall_mem_singleton.mpr hb, by decide +kernel, hnext⟩
  have hlater := endsWith_backlog count next 1 _ hbacklog
    (atOne_updateWindows blankText.tick hone rfl)
  rw [show 1 + count + 1 = count + 2 by omega] at hlater
  exact endsWith_cons hround hshort hlater

def Short.sendable {res : ResStruct} (hshort : Short res) : Sendable where
  res := res
  packable := by
    rw [hshort.contractNo, hshort.exchange]
    rcases hshort.comodity with hcomodity | hcomodity
    · exact hcomodity ▸ packable_flat.1
    · exact hcomodity ▸ packable_flat.2
  notLogin := by
    rcases hshort.comodity with hcomodity | hcomodity
    · rw [hcomodity]
      decide
    · rw [hcomodity]
      decide
  short := by
    have hlength := hshort.length
    omega

/-- A text of 2³² bytes and a few more is sent as if it were the few bytes. -/
theorem sendResult_take {β : Type} (net : NetBuffer β) {res : ResStruct} {count : ℕ}
    (hcount : count < 2 ^ 31) (hlength : res.resStr.length = 2 ^ 32 + count) :
    sendResult net { res with resStr := res.resStr.take count } = sendResult net res := by
  obtain ⟨hsize, hbytes⟩ := piece_take hcount hlength
  unfold sendResult send
  dsimp only
  rw [hsize, hbytes]

/-- A run of a worker whose last result has 2³² + 14 bytes, and all others at most 16. The client
prints a quote with the first 14 bytes of the last one. -/
theorem truncated_result_delivered :
    ∃ (before : List ResStruct) (res : ResStruct) (stream : Bytes),
      Worker.start.results (soloRounds (fun _ ↦ none) (backlogTexts 286331151)) =
        .ok (before ++ [res]) ∧
      (∀ text ∈ backlogTexts 286331151, Packable text.tick.comodity text.tick.contractNo
        text.tick.exchange ∧ text.tick.comodity ≠ ascii "LGIN") ∧
      (∀ other ∈ before, packetLen + other.resStr.length ≤ 65536) ∧
      65536 < packetLen + res.resStr.length ∧
      wire .ofBytes (before ++ [res]) = some stream ∧
      receivedQuotes .ofBytes [stream] ≠ before.map ResStruct.quote := by
  obtain ⟨before, res, hresults, hbefore, hcomodity, hcontractNo, hexchange, hres⟩ :=
    endsWith_backlogTexts 286331151
  have hlength : res.resStr.length = 2 ^ 32 + 14 := by
    have hword : wordLine.length = 15 := rfl
    rw [hres, List.length_flatten, List.map_replicate, List.sum_replicate_nat, hword]
    norm_num
  have hsmall : ∀ other ∈ before, packetLen + other.resStr.length ≤ 65536 := by
    intro other hother
    have hshort := (hbefore other hother).length
    unfold packetLen
    omega
  let final : Sendable :=
    { res := { res with resStr := res.resStr.take 14 }
      packable := by
        dsimp only
        rw [hcomodity, hcontractNo, hexchange]
        exact packable_flat.2
      notLogin := by
        dsimp only
        rw [hcomodity]
        decide
      short := by
        dsimp only
        rw [List.length_take]
        omega }
  obtain ⟨sent, rfl⟩ : ∃ sent : List Sendable, before = sent.map Sendable.res :=
    ⟨before.pmap (fun _ hshort ↦ Short.sendable hshort) hbefore, by
      rw [List.map_pmap]
      exact (List.pmap_eq_self.mpr fun _ _ ↦ rfl).symm⟩
  have hwire : wire NetBuffer.ofBytes (sent.map Sendable.res ++ [res]) =
      some (Framing.wire ((sent ++ [final]).map Sendable.frame)) := by
    rw [← Sendable.wire_eq NetBuffer.ofBytes, List.map_append]
    unfold wire
    rw [List.mapM_append, List.mapM_append, List.map_singleton, List.mapM_cons, List.mapM_cons,
      sendResult_take .ofBytes (by decide) hlength]
  have hsizes : ∀ other ∈ sent ++ [final], other.res.size ≤ 65536 := by
    refine List.forall_mem_append.mpr ⟨List.forall_mem_map.mp hsmall, ?_⟩
    refine List.forall_mem_singleton.mpr ?_
    change packetLen + (res.resStr.take 14).length ≤ 65536
    rw [List.length_take, packetLen]
    omega
  refine ⟨sent.map Sendable.res, res, _, hresults, ?_, hsmall, ?_, hwire, ?_⟩
  · intro text htext
    have hboth : text = blankText ∨ text = wordText := by
      rcases List.mem_append.mp htext with hblank | hword
      · exact .inl (List.eq_of_mem_replicate hblank)
      · exact .inr (List.eq_of_mem_replicate hword)
    rcases hboth with rfl | rfl
    · exact ⟨packable_flat.1, by decide⟩
    · exact ⟨packable_flat.2, by decide⟩
  · omega
  · rw [Sendable.receivedQuotes_of_small .ofBytes hsizes (List.flatten_singleton ..)]
    intro hsame
    have hlengths := congrArg List.length hsame
    simp at hlengths

end Backlog

end TradeServers.QuoteClient
