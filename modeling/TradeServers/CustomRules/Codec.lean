import TradeServers.LengthHeader

/-!
# The codec of the custom rules programs

The two programs of `Custom_rules` exchange messages behind a `Header` of twelve bytes, three of
which are padding that `send` leaves uninitialised. `fixed_header_codec` says what the receiver
delivers of a sequence of messages, however their bytes arrive.
-/

set_option autoImplicit false
set_option relaxedAutoImplicit false

namespace TradeServers.CustomRules

open LogTimeServer (NetBuffer)
open LengthHeader LengthPrefixed

/-- The constant `kHeaderLen`, the size of `Header`: the checksum stands between two `int32_t`, and
padding follows it. -/
def kHeaderLen : ℕ := 12

/-- The header as `onMessage` reads it. The sum `len + kHeaderLen` is a `size_t`. -/
def layout : Layout where
  size := kHeaderLen
  lengthOffset := 0
  frameSize := fun len ↦ (toSize len + kHeaderLen) % 2 ^ 64
  room := by decide
  frameSize_eq := by
    intro len hlow hhigh
    unfold toSize kHeaderLen
    omega

/-- The header that `send` fills. The id is 2 in the client and 1 in the server. -/
def header (id : ℕ) (padding : Fin 3 → UInt8) (len : ℤ) : Bytes :=
  hostToNetwork32 (toUInt32 len) ++ [1] ++ List.ofFn padding ++ hostToNetwork32 id

/-- What a caller gives to `send`, and what the padding of its header happens to contain. Messages
are shorter than 2³¹ bytes. -/
structure Outgoing where
  message : Bytes
  padding : Fin 3 → UInt8
  short : message.length < 2 ^ 31

section Codec

variable {β : Type} (net : NetBuffer β)

/-- `LengthHeaderCodec::send`: the buffer it hands to the connection. -/
def send (id : ℕ) (padding : Fin 3 → UInt8) (message : Bytes) : Option β :=
  (pieceBytes message).map fun data ↦
    let buf := net.empty
    let buf := net.append buf (header id padding (pieceSize message))
    net.append buf data

/-- The bytes that a sequence of calls of `send` puts on the wire. -/
def wire (id : ℕ) (messages : List Outgoing) : Option Bytes :=
  (messages.mapM fun sent ↦ send net id sent.padding sent.message).map
    (List.flatMap net.content)

/-- The bytes that the headers and messages take up. -/
def sentLength (messages : List Outgoing) : ℕ :=
  (messages.map fun sent ↦ kHeaderLen + sent.message.length).sum

/-- The receiving side of a connection. -/
def receive : Connection β → List Bytes → List Bytes × Connection β :=
  LengthHeader.receive net layout

theorem len_header (id : ℕ) (sent : Outgoing) :
    layout.len (header id sent.padding sent.message.length) = toInt32 sent.message.length := by
  have hshort := sent.short
  have hfield : ((header id sent.padding sent.message.length).drop layout.lengthOffset).take 4 =
      hostToNetwork32 sent.message.length := by
    unfold header
    rw [toUInt32_natCast (by omega)]
    rfl
  unfold Layout.len
  rw [hfield, toInt32_networkToHost32]

/-- The frame of a message. -/
def Outgoing.frame (id : ℕ) (sent : Outgoing) : layout.framing.Frame :=
  layout.frame (header id sent.padding sent.message.length) sent.message
    (by simp [header, layout, kHeaderLen]) (len_header id sent) (sent.short.trans (by decide))

theorem content_send (id : ℕ) (sent : Outgoing) :
    (send net id sent.padding sent.message).map net.content = some (sent.frame id).bytes := by
  unfold send
  rw [pieceBytes_of_lt sent.short, pieceSize_of_lt sent.short]
  dsimp only [Option.map_some]
  rw [net.content_append, net.content_append, net.content_empty, List.nil_append]
  rfl

/-- Whatever the messages are, their calls of `send` succeed. -/
theorem wire_eq (id : ℕ) (messages : List Outgoing) :
    wire net id messages = some (Framing.wire (messages.map (Outgoing.frame id))) :=
  wire_of_frames (content_send net id) messages

theorem length_wire (id : ℕ) (messages : List Outgoing) :
    (Framing.wire (messages.map (Outgoing.frame id))).length = sentLength messages := by
  induction messages with
  | nil => rfl
  | cons sent messages ih =>
    rw [List.map_cons, Framing.wire_cons, List.length_append, ih, Framing.Frame.length_bytes,
      Layout.framing_headerLen]
    rfl

/-- The stream is the sequence of the headers, each followed by its message. -/
theorem wire_frames (id : ℕ) (messages : List Outgoing) :
    Framing.wire (messages.map (Outgoing.frame id)) =
      messages.flatMap fun sent ↦ header id sent.padding sent.message.length ++ sent.message :=
  List.flatMap_map ..

theorem accepted_iff (id : ℕ) (sent : Outgoing) :
    (sent.frame id).Accepted ↔ sent.message.length ≤ 65536 := layout.accepted_frame_iff _ _ _

/-- The messages that have at most 65536 bytes and have fully arrived, in terms of the length of
what has arrived. -/
theorem arrived_eq (id : ℕ) (messages : List Outgoing) {stream : Bytes}
    (hstream : stream <+: Framing.wire (messages.map (Outgoing.frame id))) :
    Framing.arrived (messages.map (Outgoing.frame id)) stream =
      {count | count ≤ messages.length ∧
        (∀ sent ∈ messages.take count, sent.message.length ≤ 65536) ∧
        sentLength (messages.take count) ≤ stream.length} := by
  ext count
  unfold Framing.arrived
  rw [Set.mem_ofPred, Set.mem_ofPred, List.length_map, ← List.map_take, List.forall_mem_map]
  have haccepted : (∀ sent ∈ messages.take count, (sent.frame id).Accepted) ↔
      ∀ sent ∈ messages.take count, sent.message.length ≤ 65536 :=
    forall₂_congr fun sent _ ↦ accepted_iff id sent
  have hprefix : Framing.wire ((messages.take count).map (Outgoing.frame id)) <+: stream ↔
      sentLength (messages.take count) ≤ stream.length := by
    rw [← length_wire id]
    refine ⟨List.IsPrefix.length_le, List.prefix_of_prefix_length_le ?_ hstream⟩
    conv_rhs => rw [← List.take_append_drop count messages, List.map_append]
    exact ⟨_, List.flatMap_append.symm⟩
  rw [haccepted, hprefix]

/-- The sender puts every message behind its header on the wire. The receiver delivers, in any
chunks, the longest prefix of the messages that have at most 65536 bytes and have fully arrived, and
it keeps all bytes behind them. It closes the connection only once the header of a longer message
has fully arrived; from then on it delivers nothing, and keeps all bytes that arrive. -/
theorem fixed_header_codec (id : ℕ) (messages : List Outgoing) :
    ∃ stream, wire net id messages = some stream ∧
      stream = (messages.flatMap fun sent ↦
        header id sent.padding sent.message.length ++ sent.message) ∧
      stream.length = sentLength messages ∧
      ∀ chunks : List Bytes, chunks.flatten <+: stream → ∃ count,
        IsGreatest {count | count ≤ messages.length ∧
          (∀ sent ∈ messages.take count, sent.message.length ≤ 65536) ∧
          sentLength (messages.take count) ≤ chunks.flatten.length} count ∧
        (receive net (.start net) chunks).1 = (messages.take count).map Outgoing.message ∧
        (receive net (.start net) chunks).2.held net =
          chunks.flatten.drop (sentLength (messages.take count)) ∧
        (0 < (receive net (.start net) chunks).2.shutdowns ↔
          ∃ sent, messages[count]? = some sent ∧ 65536 < sent.message.length ∧
            sentLength (messages.take count) + kHeaderLen ≤ chunks.flatten.length) ∧
        (0 < (receive net (.start net) chunks).2.shutdowns → ∀ more,
          (receive net (receive net (.start net) chunks).2 more).1 = [] ∧
          (receive net (receive net (.start net) chunks).2 more).2.held net =
            (receive net (.start net) chunks).2.held net ++ more.flatten) := by
  refine ⟨_, wire_eq net id messages, wire_frames id messages, length_wire id messages,
    fun chunks hchunks ↦ ?_⟩
  obtain ⟨count, hgreatest, hdelivered, hsplit, hclosed, hlater⟩ :=
    receive_frames _ chunks hchunks
  rw [arrived_eq id messages hchunks] at hgreatest
  have hlength := congrArg List.length hsplit
  rw [← List.map_take] at hdelivered hsplit hlength
  rw [List.length_append, length_wire] at hlength
  refine ⟨count, hgreatest, ?_, ?_, hclosed.trans ?_, hlater⟩
  · rw [receive, hdelivered, List.map_map]
    rfl
  · conv_rhs => rw [hsplit, ← length_wire id, List.drop_left]
    rfl
  · rw [List.getElem?_map]
    constructor
    · rintro ⟨frame, hframe, hrefused, harrived⟩
      obtain ⟨sent, hsent, rfl⟩ := Option.map_eq_some_iff.mp hframe
      rw [accepted_iff] at hrefused
      refine ⟨sent, hsent, Nat.lt_of_not_le hrefused, ?_⟩
      rw [hlength]
      exact Nat.add_le_add_left harrived _
    · rintro ⟨sent, hsent, hlong, harrived⟩
      refine ⟨sent.frame id, by rw [hsent]; rfl, ?_, ?_⟩
      · rw [accepted_iff]
        exact Nat.not_le.mpr hlong
      · rw [hlength] at harrived
        exact Nat.le_of_add_le_add_left harrived

end Codec

end TradeServers.CustomRules
