import TradeServers.LogTimeServer.Codec

/-!
# Byte streams through the codec

A connection delivers its bytes in chunks of any size, and `onMessage` runs after every chunk. The
messages it hands out do not depend on the chunks: they are the reference cut of the stream
(`messages_of_any_chunking`). For a stream of frames written by `send`, they are the payloads of
the frames exactly when no payload contains the delimiter (`payloads_of_frames_iff`).

Both need the delimiters to be reachable by an `int` position. `oversized_frame_stalls` shows that
a frame of 2 GiB is never delivered.
-/

set_option autoImplicit false
set_option relaxedAutoImplicit false

namespace TradeServers.LogTimeServer

open DelimitedStream

variable {β : Type} (net : NetBuffer β)

/-- The receiving side of a connection: every chunk is appended to its buffer, and `onMessage` is
called after each append. -/
def receive : β → List Bytes → List Bytes × β :=
  feed net.append (onMessage net)

/-- Along the chunks, the buffer given to `onMessage` always holds fewer than 2³¹ bytes. -/
def BufferedBelow : β → List Bytes → Prop :=
  FeedAll net.append (onMessage net) fun buf ↦ (net.content buf).length < 2 ^ 31

theorem not_infix_content_empty : ¬ deli.symbols <:+: net.content net.empty := by
  rw [net.content_empty, List.infix_nil]
  exact deli.nonempty

/-- A buffer of fewer than 2³¹ bytes is cut. -/
theorem onMessage_eq_cut_of_length {buf : β} (hlength : (net.content buf).length < 2 ^ 31) :
    (onMessage net buf).1 = (deli.cut (net.content buf)).1 ∧
      net.content (onMessage net buf).2 = (deli.cut (net.content buf)).2 := by
  apply onMessage_eq_cut
  intro piece hpiece
  have hroom := deli.length_add_le_of_mem_cut hpiece
  rw [length_deli] at hroom
  omega

/-- A stream of fewer than 2³¹ bytes never fills the buffer beyond them. -/
theorem bufferedBelow_of_length (chunks : List Bytes) :
    ∀ buf, (net.content buf ++ chunks.flatten).length < 2 ^ 31 →
      BufferedBelow net buf chunks := by
  induction chunks with
  | nil => exact fun _ _ ↦ trivial
  | cons chunk chunks ih =>
    intro buf hlength
    rw [List.flatten_cons, ← List.append_assoc, ← net.content_append, List.length_append]
      at hlength
    have hnow : (net.content (net.append buf chunk)).length < 2 ^ 31 := by omega
    have hleft := (onMessage_eq_cut_of_length net hnow).2
    have hshrink := congrArg List.length (deli.flatten_cut (net.content (net.append buf chunk)))
    rw [List.length_append, ← hleft] at hshrink
    refine ⟨hnow, ih _ ?_⟩
    rw [List.length_append]
    omega

theorem receive_eq_cut {chunks : List Bytes} (hbuffered : BufferedBelow net net.empty chunks) :
    (receive net net.empty chunks).1 = (deli.cut chunks.flatten).1 ∧
      net.content (receive net net.empty chunks).2 = (deli.cut chunks.flatten).2 := by
  have hcut := feed_eq_cut deli net.content_append
    (fun buf hlength ↦ onMessage_eq_cut_of_length net hlength) chunks net.empty
    (not_infix_content_empty net) hbuffered
  rw [net.content_empty, List.nil_append] at hcut
  exact hcut

/-- However a stream is chunked, the messages handed out are its reference cut, the bytes left in
the buffer are what follows the last delimiter, and one single chunk would have given the same
messages. -/
theorem messages_of_any_chunking (chunks : List Bytes)
    (hbuffered : BufferedBelow net net.empty chunks) :
    (receive net net.empty chunks).1 = (deli.cut chunks.flatten).1 ∧
      net.content (receive net net.empty chunks).2 = (deli.cut chunks.flatten).2 ∧
      ¬ deli.symbols <:+: net.content (receive net net.empty chunks).2 ∧
      (chunks.flatten.length < 2 ^ 31 →
        (receive net net.empty [chunks.flatten]).1 = (receive net net.empty chunks).1) := by
  obtain ⟨hmessages, hleft⟩ := receive_eq_cut net hbuffered
  refine ⟨hmessages, hleft, hleft ▸ deli.not_infix_remainder _, fun hlength ↦ ?_⟩
  have hsingle : BufferedBelow net net.empty [chunks.flatten] := by
    apply bufferedBelow_of_length
    simpa [net.content_empty] using hlength
  rw [hmessages, (receive_eq_cut net hsingle).1]
  simp

/-- Two delimiters, the first of them cut in two by the chunks and the second preceded by a
partial one. -/
theorem messages_of_split_delimiter :
    (receive .ofBytes [] [ascii "ab@%", ascii "&)@@%&)c"]).1 =
        (deli.cut (ascii "ab@%&)@@%&)c")).1 ∧
      NetBuffer.ofBytes.content (receive .ofBytes [] [ascii "ab@%", ascii "&)@@%&)c"]).2 =
        (deli.cut (ascii "ab@%&)@@%&)c")).2 :=
  have hall := messages_of_any_chunking .ofBytes [ascii "ab@%", ascii "&)@@%&)c"]
    (bufferedBelow_of_length _ _ _ (by decide))
  ⟨hall.1, hall.2.1⟩

/-! ### Streams of frames -/

/-- The bytes that a sequence of calls of `send` puts on the wire. -/
def wire (messages : List Message) : Bytes :=
  (messages.map fun message ↦ net.content (send net message)).flatten

theorem wire_eq_frames (messages : List Message) :
    wire net messages = deli.frames (messages.map payload) := by
  unfold wire Delimiter.frames
  simp only [content_send, List.map_map, Function.comp_def]

/-- The bytes of a frame: header, body and delimiter. -/
def frameLength (message : Message) : ℕ := headerLen + message.body.length + deliLen

/-- A stream of frames that are each shorter than 2³¹ bytes is cut, however long the stream is and
however it is chunked. -/
theorem receive_wire {messages : List Message} {chunks : List Bytes}
    (hfits : ∀ message ∈ messages, message.Fits)
    (hsize : ∀ message ∈ messages, frameLength message < 2 ^ 31)
    (hchunks : chunks.flatten = wire net messages) :
    (receive net net.empty chunks).1 = (deli.cut (deli.frames (messages.map payload))).1 := by
  have hpieces : ∀ piece ∈ (deli.cut (net.content net.empty ++ chunks.flatten)).1,
      piece.length + deliLen < 2 ^ 31 := by
    rw [net.content_empty, List.nil_append, hchunks, wire_eq_frames]
    intro piece hpiece
    obtain ⟨_, hmem, hlength⟩ := deli.exists_length_le_of_mem_cut_frames hpiece
    obtain ⟨message, hmessage, rfl⟩ := List.mem_map.mp hmem
    rw [length_payload (hfits message hmessage)] at hlength
    have hframe := hsize message hmessage
    unfold frameLength at hframe
    omega
  have hall := feedAll_of_pieces deli net.content_append
    (fun buf hpieces ↦ (onMessage_eq_cut net hpieces).2) chunks net.empty hpieces
  have hcut := (feed_eq_cut deli net.content_append
    (fun buf hpieces ↦ onMessage_eq_cut net hpieces) chunks net.empty
    (not_infix_content_empty net) hall).1
  rw [net.content_empty, List.nil_append, hchunks, wire_eq_frames] at hcut
  exact hcut

/-- The payloads of a stream of frames are delivered, in their order, exactly when none of them
contains the delimiter. -/
theorem payloads_of_frames_iff (messages : List Message) (chunks : List Bytes)
    (hfits : ∀ message ∈ messages, message.Fits)
    (hsize : ∀ message ∈ messages, frameLength message < 2 ^ 31)
    (hchunks : chunks.flatten = wire net messages) :
    (receive net net.empty chunks).1 = messages.map payload ↔
      ∀ message ∈ messages, ¬ deli.symbols <:+: payload message := by
  rw [receive_wire net hfits hsize hchunks, deli.cut_frames_eq_iff, List.forall_mem_map]

/-- An upload whose body contains the delimiter. -/
def embeddedDelimiter : Message where
  cmd := ascii "RQUPJ"
  format := ascii "GZIP"
  userName := ascii "user"
  key := ascii "2024"
  side := ascii "B"
  body := ascii "x@%&)y"

theorem payloads_of_embedded_delimiter :
    (receive .ofBytes [] [wire .ofBytes [embeddedDelimiter]]).1 = [payload embeddedDelimiter] ↔
      ∀ message ∈ [embeddedDelimiter], ¬ deli.symbols <:+: payload message :=
  payloads_of_frames_iff .ofBytes [embeddedDelimiter] [wire .ofBytes [embeddedDelimiter]]
    (by
      rintro _ (_ | _)
      · exact ⟨by decide, by decide, by decide, by decide, by decide⟩
      · contradiction)
    (by
      rintro _ (_ | _)
      · decide
      · contradiction)
    (List.append_nil _)

/-! ### Frames beyond the range of an `int` -/

/-- A frame without the delimiter in its payload, but with its own delimiter at a position from
2³¹ up to 2³², is not delivered. -/
theorem oversized_frame_stalls {message : Message} (habsent : ¬ deli.symbols <:+: payload message)
    (hlow : 2 ^ 31 ≤ (payload message).length) (hhigh : (payload message).length < 2 ^ 32) :
    (receive net net.empty [wire net [message]]).1 = [] := by
  have hcontent : net.content (net.append net.empty (wire net [message])) =
      payload message ++ (deli.symbols ++ []) := by
    rw [net.content_append, net.content_empty, wire_eq_frames]
    simp
  have hfirst := deli.firstOccurrence_frame habsent []
  rw [← hcontent] at hfirst
  unfold receive feed
  rw [onMessage_of_high net hfirst hlow hhigh]
  rfl

/-- An upload of 2 GiB less the header: its size still fits an `int`. -/
def oversized : Message where
  cmd := ascii "RQUPJ"
  format := ascii "GZIP"
  userName := ascii "user"
  key := ascii "2024"
  side := ascii "B"
  body := List.replicate (2 ^ 31 - headerLen) 0

theorem oversized_fits : oversized.Fits :=
  ⟨by decide, by decide, by decide, by decide, by decide⟩

theorem length_payload_oversized : (payload oversized).length = 2 ^ 31 := by
  have hbody : oversized.body.length = 2 ^ 31 - headerLen := List.length_replicate
  rw [length_payload oversized_fits, hbody]
  decide

theorem not_infix_oversized : ¬ deli.symbols <:+: payload oversized := by
  intro hinside
  have hmark : 64 ∈ payload oversized := hinside.subset (by decide)
  rcases List.mem_append.mp hmark with hheader | hbody
  · rw [header_of_fits oversized_fits] at hheader
    revert hheader
    decide
  · cases List.eq_of_mem_replicate hbody

/-- The payload of `oversized` does not contain the delimiter, and yet it is not delivered. -/
theorem oversized_not_delivered :
    oversized.Fits ∧ (∀ message ∈ [oversized], ¬ deli.symbols <:+: payload message) ∧
      (receive .ofBytes [] [wire .ofBytes [oversized]]).1 ≠ [oversized].map payload := by
  refine ⟨oversized_fits, ?_, ?_⟩
  · intro message hmessage
    rw [List.mem_singleton.mp hmessage]
    exact not_infix_oversized
  · have hstall := oversized_frame_stalls .ofBytes not_infix_oversized
      length_payload_oversized.ge (by rw [length_payload_oversized]; decide)
    intro hdelivered
    exact absurd (hstall.symm.trans hdelivered) (List.cons_ne_nil _ _).symm

end TradeServers.LogTimeServer
