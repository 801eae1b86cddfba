import TradeServers.LengthHeader

/-!
# The codec of the chat programs

The chat server, its client and the echo server `comServer` send every message behind its length
alone, four bytes in network order. `send` appends the message to a fresh buffer and prepends the
length.

- `receive_wire`: whatever arrives of a sequence of messages, the receiver delivers first ones of
  them, none above 65536 bytes.
- `receive_accepted`: a sequence of messages of at most 65536 bytes never closes the connection, and
  is delivered as far as it has arrived.
-/

set_option autoImplicit false
set_option relaxedAutoImplicit false

namespace TradeServers.Chat

open LogTimeServer (NetBuffer)
open LengthHeader LengthPrefixed

/-- A buffer with room in front of its content. -/
structure PrependBuffer (β : Type) extends NetBuffer β where
  prepend : β → Bytes → β
  content_prepend : ∀ buf data, content (prepend buf data) = data ++ content buf

/-- A buffer that is the list of its readable bytes. -/
def PrependBuffer.ofBytes : PrependBuffer Bytes where
  toNetBuffer := NetBuffer.ofBytes
  prepend := fun buf data ↦ data ++ buf
  content_prepend := fun _ _ ↦ rfl

/-- The constant `kHeaderLen`. -/
def kHeaderLen : ℕ := 4

/-- The header as `onMessage` reads it. The sum `len + kHeaderLen` is a `size_t`. -/
def layout : Layout where
  size := kHeaderLen
  lengthOffset := 0
  frameSize := fun len ↦ (toSize len + kHeaderLen) % 2 ^ 64
  room := by decide
  frameSize_eq := by
    intro len hlow hhigh
    unfold toSize kHeaderLen
    omega

/-- The length that `send` prepends. -/
def header (len : ℤ) : Bytes := hostToNetwork32 (toUInt32 len)

/-- A message that is shorter than 2³¹ bytes, which `send` takes as it is. -/
structure Message where
  bytes : Bytes
  short : bytes.length < 2 ^ 31

theorem len_header (message : Message) :
    layout.len (header message.bytes.length) = toInt32 message.bytes.length := by
  have hshort := message.short
  have hfield : ((header message.bytes.length).drop layout.lengthOffset).take 4 =
      hostToNetwork32 message.bytes.length := by
    unfold header
    rw [toUInt32_natCast (by omega)]
    rfl
  unfold Layout.len
  rw [hfield, toInt32_networkToHost32]

/-- The frame of a message. -/
def Message.frame (message : Message) : layout.framing.Frame :=
  layout.frame (header message.bytes.length) message.bytes
    (by simp [header, layout, kHeaderLen]) (len_header message) (message.short.trans (by decide))

theorem accepted_iff (message : Message) :
    message.frame.Accepted ↔ message.bytes.length ≤ 65536 := layout.accepted_frame_iff _ _ _

/-- The bytes of a sequence of messages. -/
def wire (messages : List Message) : Bytes := Framing.wire (messages.map Message.frame)

@[simp] theorem wire_nil : wire [] = [] := rfl

theorem wire_append (first second : List Message) :
    wire (first ++ second) = wire first ++ wire second := by
  rw [wire, List.map_append]
  exact List.flatMap_append

section Codec

variable {β : Type} (net : PrependBuffer β)

/-- `LengthHeaderCodec::send`: the buffer it hands to the connection. -/
def send (message : Bytes) : Option β :=
  (pieceBytes message).map fun data ↦
    net.prepend (net.append net.empty data) (header (pieceSize message))

/-- The receiving side of a connection. -/
def receive : Connection β → List Bytes → List Bytes × Connection β :=
  LengthHeader.receive net.toNetBuffer layout

theorem content_send (message : Message) :
    (send net message.bytes).map net.content = some (wire [message]) := by
  unfold send
  rw [pieceBytes_of_lt message.short, pieceSize_of_lt message.short]
  dsimp only [Option.map_some]
  rw [net.content_prepend, net.content_append, net.content_empty, List.nil_append]
  exact congrArg some (List.append_nil _).symm

variable {net}

variable (net) in
/-- A further chunk is received behind the earlier ones. -/
theorem receive_concat (conn : Connection β) (chunks : List Bytes) (chunk : Bytes) :
    receive net conn (chunks ++ [chunk]) =
      ((receive net conn chunks).1 ++
        (((receive net conn chunks).2.arrive net.toNetBuffer chunk).onMessage net.toNetBuffer
          layout).1,
        (((receive net conn chunks).2.arrive net.toNetBuffer chunk).onMessage net.toNetBuffer
          layout).2) := by
  unfold receive LengthHeader.receive
  rw [DelimitedStream.feed_append]
  simp only [DelimitedStream.feed, List.append_nil]

theorem length_le_of_mem_cut (stream : Bytes) :
    ∀ message ∈ (layout.framing.cut stream).1, message.length ≤ 65536 := by
  induction stream using layout.framing.cut_induction with
  | stuck stream hnone =>
    rw [Framing.cut_of_not_complete hnone]
    exact List.forall_mem_nil _
  | found stream length hcomplete ih =>
    rw [Framing.cut_of_complete hcomplete]
    refine List.forall_mem_cons.mpr ⟨?_, ih⟩
    rw [List.length_take]
    exact (Nat.min_le_left _ _).trans (complete_iff.mp hcomplete).2.2

/-- Whatever bytes arrive, no message above 65536 bytes is delivered. -/
theorem length_le_of_mem_onMessage {conn : Connection β} {message : Bytes}
    (hmessage : message ∈ (conn.onMessage net.toNetBuffer layout).1) :
    message.length ≤ 65536 := by
  have hcut := (onMessage_eq_cut net.toNetBuffer layout conn.buf).1
  exact length_le_of_mem_cut _ message (hcut ▸ hmessage)

theorem receive_wire {messages : List Message} {chunks : List Bytes}
    (hchunks : chunks.flatten <+: wire messages) :
    (receive net (.start net.toNetBuffer) chunks).1 <+: messages.map Message.bytes ∧
      ∀ message ∈ (receive net (.start net.toNetBuffer) chunks).1, message.length ≤ 65536 := by
  obtain ⟨count, ⟨⟨-, haccepted, -⟩, -⟩, hdelivered, -⟩ :=
    @receive_frames _ net.toNetBuffer layout _ chunks hchunks
  rw [receive, hdelivered, ← List.map_take, List.map_map]
  rw [← List.map_take, List.forall_mem_map] at haccepted
  refine ⟨(List.take_prefix count messages).map Message.bytes, fun message hmessage ↦ ?_⟩
  obtain ⟨sent, hsent, rfl⟩ := List.mem_map.mp hmessage
  exact (accepted_iff sent).mp (haccepted sent hsent)

theorem receive_accepted {messages : List Message} {chunks : List Bytes}
    (hshort : ∀ message ∈ messages, message.bytes.length ≤ 65536)
    (hchunks : chunks.flatten <+: wire messages) :
    (receive net (.start net.toNetBuffer) chunks).2.shutdowns = 0 ∧
      ∃ count, IsGreatest {count | count ≤ messages.length ∧
          wire (messages.take count) <+: chunks.flatten} count ∧
        (receive net (.start net.toNetBuffer) chunks).1 =
          (messages.take count).map Message.bytes := by
  obtain ⟨count, hgreatest, hdelivered, -, hclosed, -⟩ :=
    @receive_frames _ net.toNetBuffer layout _ chunks hchunks
  have haccepted : ∀ frame ∈ messages.map Message.frame, frame.Accepted := by
    rw [List.forall_mem_map]
    exact fun message hmessage ↦ (accepted_iff message).mpr (hshort message hmessage)
  have hset : Framing.arrived (messages.map Message.frame) chunks.flatten =
      {count | count ≤ messages.length ∧ wire (messages.take count) <+: chunks.flatten} := by
    ext other
    unfold Framing.arrived wire
    rw [Set.mem_ofPred, Set.mem_ofPred, List.length_map, ← List.map_take]
    refine and_congr_right fun _ ↦ and_iff_right fun frame hframe ↦ haccepted frame ?_
    rw [List.map_take] at hframe
    exact List.mem_of_mem_take hframe
  refine ⟨Nat.eq_zero_of_not_pos fun hshutdown ↦ ?_, count, hset ▸ hgreatest, ?_⟩
  · obtain ⟨frame, hframe, hrefused, -⟩ := hclosed.mp hshutdown
    exact hrefused (haccepted frame (List.mem_of_getElem? hframe))
  · rw [receive, hdelivered, ← List.map_take, List.map_map]
    rfl

/-- What has fully arrived is fully delivered. -/
theorem receive_all {messages : List Message} {chunks : List Bytes}
    (hshort : ∀ message ∈ messages, message.bytes.length ≤ 65536)
    (hchunks : chunks.flatten = wire messages) :
    (receive net (.start net.toNetBuffer) chunks).1 = messages.map Message.bytes := by
  have hprefix : chunks.flatten <+: wire messages := hchunks ▸ List.prefix_rfl
  obtain ⟨-, count, ⟨⟨hcount, -⟩, hgreatest⟩, hdelivered⟩ :=
    @receive_accepted _ net _ chunks hshort hprefix
  have hall : messages.length ≤ count := hgreatest ⟨le_rfl, by rw [List.take_length, hchunks]⟩
  rw [hdelivered, List.take_of_length_le hall]

end Codec

end TradeServers.Chat
