import TradeServers.LogTimeServer.Codec
import TradeServers.Library.LengthPrefixed

/-!
# Codecs with the length in the header

Two programs send the length of every message in a header of fixed size. Their `onMessage` reads it
as an `int32_t` in network order, closes the connection on a length that is negative or above 65536,
and leaves the header of such a message in the buffer. `Layout` says what their headers differ in.

`onMessage_eq_cut` relates one call to the reference cut of the buffered bytes, and
`receive_frames` says what a connection delivers of a stream of frames, however it is chunked.
-/

set_option autoImplicit false
set_option relaxedAutoImplicit false

namespace TradeServers.LengthHeader

open LogTimeServer (NetBuffer)
open DelimitedStream LengthPrefixed

/-! ### Integers in network order -/

/-- `sockets::hostToNetwork32`, as the four bytes it leaves in memory. -/
def hostToNetwork32 (value : ℕ) : Bytes :=
  [value / 2 ^ 24, value / 2 ^ 16, value / 2 ^ 8, value].map UInt8.ofNat

/-- The conversion of an `int32_t` to a `uint32_t`. -/
def toUInt32 (value : ℤ) : ℕ := (value % 2 ^ 32).toNat

theorem toUInt32_natCast {value : ℕ} (hvalue : value < 2 ^ 32) : toUInt32 value = value := by
  unfold toUInt32
  omega

/-- `sockets::networkToHost32` of four bytes in memory. -/
def networkToHost32 (bytes : Bytes) : ℕ :=
  bytes.foldl (fun value byte ↦ value * 2 ^ 8 + byte.toNat) 0

@[simp] theorem length_hostToNetwork32 (value : ℕ) : (hostToNetwork32 value).length = 4 := rfl

theorem networkToHost32_hostToNetwork32 (value : ℕ) :
    networkToHost32 (hostToNetwork32 value) = value % 2 ^ 32 := by
  simp only [networkToHost32, hostToNetwork32, List.map_cons, List.map_nil, List.foldl_cons,
    List.foldl_nil, UInt8.toNat_ofNat']
  omega

theorem toInt32_mod (value : ℕ) : toInt32 (value % 2 ^ 32) = toInt32 value := by
  unfold toInt32
  rw [Int.natCast_mod]
  exact Int.emod_bmod value (2 ^ 32)

/-- A length passes through the header as the `int32_t` it is converted to. -/
theorem toInt32_networkToHost32 (value : ℕ) :
    toInt32 (networkToHost32 (hostToNetwork32 value)) = toInt32 value := by
  rw [networkToHost32_hostToNetwork32, toInt32_mod]

/-! ### Pieces of strings -/

/-- `StringPiece::size()` of a piece of the whole string: an `int`. -/
def pieceSize (text : Bytes) : ℤ := toInt32 text.length

/-- The bytes that `Buffer::append` takes from a piece of the whole string. There are none when the
size is negative: as a `size_t` it is then larger than any buffer, and the call throws. -/
def pieceBytes (text : Bytes) : Option Bytes :=
  if 0 ≤ pieceSize text then some (text.take (pieceSize text).toNat) else none

theorem pieceSize_of_lt {text : Bytes} (hlength : text.length < 2 ^ 31) :
    pieceSize text = text.length := toInt32_of_lt hlength

theorem pieceBytes_of_lt {text : Bytes} (hlength : text.length < 2 ^ 31) :
    pieceBytes text = some text := by
  unfold pieceBytes
  rw [pieceSize_of_lt hlength, if_pos (Int.natCast_nonneg _), Int.toNat_natCast,
    List.take_length]

/-- A piece cannot tell a string from its first bytes when 2³² bytes follow them. -/
theorem piece_take {text : Bytes} {count : ℕ} (hcount : count < 2 ^ 31)
    (hlength : text.length = 2 ^ 32 + count) :
    pieceSize (text.take count) = pieceSize text ∧
      pieceBytes (text.take count) = pieceBytes text := by
  have htake : (text.take count).length = count := by
    rw [List.length_take]
    omega
  have hshort : pieceSize (text.take count) = count := by
    rw [pieceSize, htake, toInt32_of_lt hcount]
  have hsize : pieceSize text = count := by
    have hmod : (2 ^ 32 + count) % 2 ^ 32 = count := by omega
    rw [pieceSize, hlength, ← toInt32_mod, hmod, toInt32_of_lt hcount]
  refine ⟨hshort.trans hsize.symm, ?_⟩
  unfold pieceBytes
  rw [hshort, hsize, Int.toNat_natCast, List.take_take, Nat.min_self]

/-! ### Headers -/

/-- What distinguishes the headers: their size, where the length stands in them, and the type in
which `onMessage` adds the two before it compares the sum with the readable bytes. -/
structure Layout where
  size : ℕ
  lengthOffset : ℕ
  frameSize : ℤ → ℕ
  room : lengthOffset + 4 ≤ size
  frameSize_eq : ∀ len : ℤ, 0 ≤ len → len ≤ 65536 → frameSize len = len.toNat + size

/-- The lengths that `onMessage` logs as invalid. -/
def Invalid (len : ℤ) : Prop := len > 65536 ∨ len < 0

instance (len : ℤ) : Decidable (Invalid len) := inferInstanceAs (Decidable (_ ∨ _))

theorem valid_natCast {length : ℕ} (hlength : length ≤ 65536) : ¬ Invalid length := by
  unfold Invalid
  omega

/-- Every length from 65537 up to 2³² is read as an invalid one. -/
theorem invalid_toInt32 {length : ℕ} (hlow : 65536 < length) (hhigh : length < 2 ^ 32) :
    Invalid (toInt32 length) := by
  by_cases hpos : length < 2 ^ 31
  · rw [toInt32_of_lt hpos]
    exact .inl (by omega)
  · exact .inr (toInt32_neg_of_high (Nat.le_of_not_lt hpos) hhigh)

namespace Layout

variable (layout : Layout)

theorem size_pos : 0 < layout.size := lt_of_lt_of_le (by omega) layout.room

/-- The length in a header. -/
def len (header : Bytes) : ℤ :=
  toInt32 (networkToHost32 ((header.drop layout.lengthOffset).take 4))

/-- What `onMessage` reads in a header. -/
def announced (header : Bytes) : Option ℕ :=
  if Invalid (layout.len header) then none else some (layout.len header).toNat

/-- How `onMessage` reads headers. -/
def framing : Framing UInt8 where
  headerLen := layout.size
  headerLen_pos := layout.size_pos
  announced := layout.announced

theorem framing_announced : layout.framing.announced = layout.announced := by
  unfold framing
  dsimp only

theorem framing_headerLen : layout.framing.headerLen = layout.size := by
  unfold framing
  dsimp only

/-- What the header of a message announces. -/
theorem announced_of_len {header message : Bytes}
    (hlen : layout.len header = toInt32 message.length) (hlong : message.length < 2 ^ 32) :
    layout.announced header =
      if message.length ≤ 65536 then some message.length else none := by
  unfold announced
  rw [hlen]
  by_cases hbound : message.length ≤ 65536
  · rw [toInt32_of_lt (by omega), if_neg (valid_natCast hbound), if_pos hbound, Int.toNat_natCast]
  · rw [if_pos (invalid_toInt32 (Nat.lt_of_not_le hbound) hlong), if_neg hbound]

/-- A message of less than 2³² bytes behind a header that gives its length. -/
def frame (header message : Bytes) (hsize : header.length = layout.size)
    (hlen : layout.len header = toInt32 message.length) (hlong : message.length < 2 ^ 32) :
    layout.framing.Frame where
  header := header
  message := message
  header_length := by rw [framing_headerLen, hsize]
  announces := by
    intro length hannounced
    rw [framing_announced, announced_of_len layout hlen hlong] at hannounced
    split_ifs at hannounced
    exact (Option.some.inj hannounced).symm

theorem accepted_frame_iff {header message : Bytes} (hsize : header.length = layout.size)
    (hlen : layout.len header = toInt32 message.length) (hlong : message.length < 2 ^ 32) :
    (layout.frame header message hsize hlen hlong).Accepted ↔ message.length ≤ 65536 := by
  unfold Framing.Frame.Accepted
  rw [framing_announced]
  change layout.announced header = some message.length ↔ _
  rw [announced_of_len layout hlen hlong]
  split_ifs with hbound
  · exact iff_of_true rfl hbound
  · exact iff_of_false nofun hbound

/-- The length is read in the header only. -/
theorem len_take (stream : Bytes) :
    layout.len (stream.take layout.size) = layout.len stream := by
  have hroom := layout.room
  have hkeep : (stream.take layout.size).drop layout.lengthOffset =
      (stream.drop layout.lengthOffset).take (layout.size - layout.lengthOffset) :=
    List.drop_take ..
  unfold len
  rw [hkeep, List.take_take, Nat.min_eq_left (by omega)]

end Layout

section Receiving

variable {β : Type} (net : NetBuffer β) (layout : Layout)

/-- `LengthHeaderCodec::onMessage`: the messages handed to the callback, the buffer it leaves, and
whether it calls `conn->shutdown()`. -/
def onMessage (buf : β) : List Bytes × β × Bool :=
  if _hsize : layout.size ≤ (net.content buf).length then
    let len := layout.len (net.content buf)
    if Invalid len then ([], buf, true)
    else if layout.frameSize len ≤ (net.content buf).length then
      let message := (net.content (net.retrieve buf layout.size)).take (toSize len)
      let rest := onMessage (net.retrieve (net.retrieve buf layout.size) (toSize len))
      (message :: rest.1, rest.2)
    else ([], buf, false)
  else ([], buf, false)
termination_by (net.content buf).length
decreasing_by
  have hpos := layout.size_pos
  rw [net.content_retrieve, net.content_retrieve, List.length_drop, List.length_drop]
  omega

variable {net layout} {buf : β} {length : ℕ}

theorem refused_iff {stream : Bytes} :
    layout.framing.Refused stream ↔ layout.size ≤ stream.length ∧
      Invalid (layout.len stream) := by
  unfold Framing.Refused
  rw [layout.framing_announced, layout.framing_headerLen]
  refine and_congr_right fun hsize ↦ ?_
  unfold Layout.announced
  rw [layout.len_take]
  split_ifs with hlen
  · exact iff_of_true rfl hlen
  · exact iff_of_false nofun hlen

theorem complete_iff {stream : Bytes} :
    layout.framing.Complete stream length ↔ layout.size + length ≤ stream.length ∧
      layout.len stream = length ∧ length ≤ 65536 := by
  constructor
  · rintro ⟨hannounced, harrived⟩
    rw [layout.framing_headerLen] at harrived
    rw [layout.framing_announced, layout.framing_headerLen] at hannounced
    unfold Layout.announced at hannounced
    rw [layout.len_take] at hannounced
    split_ifs at hannounced with hlen
    have hsome := Option.some.inj hannounced
    unfold Invalid at hlen
    omega
  · rintro ⟨harrived, hlen, hbound⟩
    refine ⟨?_, harrived⟩
    rw [layout.framing_announced, layout.framing_headerLen]
    unfold Layout.announced
    rw [layout.len_take, hlen, if_neg (valid_natCast hbound), Int.toNat_natCast]

/-- The loop takes out a message that has arrived, and goes on behind it. -/
theorem onMessage_of_complete (hcomplete : layout.framing.Complete (net.content buf) length) :
    onMessage net layout buf =
      (((net.content buf).drop layout.size).take length ::
        (onMessage net layout (net.retrieve (net.retrieve buf layout.size) length)).1,
        (onMessage net layout (net.retrieve (net.retrieve buf layout.size) length)).2) := by
  obtain ⟨harrived, hlen, hbound⟩ := complete_iff.mp hcomplete
  have hframe : layout.frameSize length ≤ (net.content buf).length := by
    rw [layout.frameSize_eq _ (by omega) (by omega), Int.toNat_natCast]
    omega
  conv_lhs => unfold onMessage
  rw [dif_pos (by omega)]
  dsimp only
  rw [hlen, if_neg (valid_natCast hbound), if_pos hframe, toSize_natCast (by omega),
    net.content_retrieve]

/-- The loop stops at a refused header. -/
theorem onMessage_of_refused (hrefused : layout.framing.Refused (net.content buf)) :
    onMessage net layout buf = ([], buf, true) := by
  obtain ⟨hsize, hlen⟩ := refused_iff.mp hrefused
  unfold onMessage
  rw [dif_pos hsize]
  exact if_pos hlen

/-- The loop stops when the first message has not arrived. -/
theorem onMessage_of_incomplete
    (hnone : ∀ length, ¬ layout.framing.Complete (net.content buf) length)
    (hrefused : ¬ layout.framing.Refused (net.content buf)) :
    onMessage net layout buf = ([], buf, false) := by
  rw [refused_iff, not_and] at hrefused
  unfold onMessage
  split_ifs with hsize
  · have hlen := hrefused hsize
    dsimp only
    rw [if_neg hlen, if_neg]
    unfold Invalid at hlen
    rw [layout.frameSize_eq _ (by omega) (by omega)]
    intro harrived
    refine hnone (layout.len (net.content buf)).toNat (complete_iff.mpr ⟨?_, ?_, ?_⟩) <;> omega
  · rfl

variable (net layout) in
/-- One call of `onMessage` cuts the buffered bytes, and closes the connection when it comes to a
refused header. -/
theorem onMessage_eq_cut (buf : β) :
    (onMessage net layout buf).1 = (layout.framing.cut (net.content buf)).1 ∧
      net.content (onMessage net layout buf).2.1 = (layout.framing.cut (net.content buf)).2 ∧
      ((onMessage net layout buf).2.2 = true ↔
        layout.framing.Refused (layout.framing.cut (net.content buf)).2) := by
  induction hcontent : net.content buf using layout.framing.cut_induction generalizing buf with
  | stuck stream hnone =>
    subst hcontent
    rw [Framing.cut_of_not_complete hnone]
    by_cases hrefused : layout.framing.Refused (net.content buf)
    · rw [onMessage_of_refused hrefused]
      exact ⟨rfl, rfl, iff_of_true rfl hrefused⟩
    · rw [onMessage_of_incomplete hnone hrefused]
      exact ⟨rfl, rfl, iff_of_false nofun hrefused⟩
  | found stream length hcomplete ih =>
    subst hcontent
    have hrest : net.content (net.retrieve (net.retrieve buf layout.size) length) =
        (net.content buf).drop (layout.framing.headerLen + length) := by
      rw [net.content_retrieve, net.content_retrieve, List.drop_drop]
      rfl
    obtain ⟨hmessages, hleft, hclosed⟩ := ih _ hrest
    rw [Framing.cut_of_complete hcomplete, onMessage_of_complete hcomplete]
    exact ⟨congrArg _ hmessages, hleft, hclosed⟩

/-- When every call of a `send` hands a frame to the connection, a sequence of calls puts the frames
on the wire one after the other. -/
theorem wire_of_frames {γ : Type} {send : γ → Option β} {frame : γ → layout.framing.Frame}
    (hsend : ∀ sent, (send sent).map net.content = some (frame sent).bytes) (messages : List γ) :
    (messages.mapM send).map (List.flatMap net.content) =
      some (Framing.wire (messages.map frame)) := by
  induction messages with
  | nil => rfl
  | cons sent messages ih =>
    obtain ⟨buf, hbuf, hcontent⟩ := Option.map_eq_some_iff.mp (hsend sent)
    obtain ⟨bufs, hbufs, hcontents⟩ := Option.map_eq_some_iff.mp ih
    rw [List.mapM_cons, hbuf, hbufs]
    change some (net.content buf ++ bufs.flatMap net.content) = _
    rw [hcontent, hcontents, List.map_cons, Framing.wire_cons]

/-! ### Connections -/

/-- The receiving side of a connection: its buffer, and how often `onMessage` has called
`shutdown`. -/
structure Connection (β : Type) where
  buf : β
  shutdowns : ℕ

variable (net layout)

/-- A connection that has just come up. -/
def Connection.start : Connection β := ⟨net.empty, 0⟩

/-- The bytes that a connection has received and not retrieved. -/
def Connection.held (conn : Connection β) : Bytes := net.content conn.buf

/-- A chunk arrives in the buffer. -/
def Connection.arrive (conn : Connection β) (chunk : Bytes) : Connection β :=
  { conn with buf := net.append conn.buf chunk }

/-- A call of `onMessage` on a connection. -/
def Connection.onMessage (conn : Connection β) : List Bytes × Connection β :=
  let result := LengthHeader.onMessage net layout conn.buf
  (result.1, ⟨result.2.1, if result.2.2 then conn.shutdowns + 1 else conn.shutdowns⟩)

/-- The chunks of a stream arrive at a connection, and `onMessage` is called after each of them. -/
def receive : Connection β → List Bytes → List Bytes × Connection β :=
  feed (Connection.arrive net) (Connection.onMessage net layout)

variable {net layout} {conn : Connection β}

/-- A connection has been closed exactly when it has come to a refused header. -/
def Connection.ClosedIfRefused (net : NetBuffer β) (layout : Layout) (conn : Connection β) : Prop :=
  0 < conn.shutdowns ↔ layout.framing.Refused (conn.held net)

theorem closedIfRefused_step (chunk : Bytes) (hclosed : conn.ClosedIfRefused net layout) :
    ((conn.arrive net chunk).onMessage net layout).2.ClosedIfRefused net layout := by
  obtain ⟨-, hleft, hshutdown⟩ :=
    onMessage_eq_cut net layout (net.append conn.buf chunk)
  unfold Connection.ClosedIfRefused Connection.held Connection.onMessage Connection.arrive
  dsimp only
  rw [hleft, ← hshutdown]
  split_ifs with hnow
  · exact iff_of_true (Nat.succ_pos _) hnow
  · refine iff_of_false (fun hbefore ↦ hnow (hshutdown.mpr ?_)) hnow
    have hrefused : layout.framing.Refused (net.content conn.buf ++ chunk) :=
      (hclosed.mp hbefore).append chunk
    rw [net.content_append, Framing.cut_of_not_complete hrefused.not_complete]
    exact hrefused

/-- However a stream is chunked, a connection delivers what the reference cut takes out of it, and
keeps the rest. -/
theorem receive_eq_cut (hnothing : ∀ length, ¬ layout.framing.Complete (conn.held net) length)
    (chunks : List Bytes) :
    (receive net layout conn chunks).1 =
        (layout.framing.cut (conn.held net ++ chunks.flatten)).1 ∧
      (receive net layout conn chunks).2.held net =
        (layout.framing.cut (conn.held net ++ chunks.flatten)).2 :=
  have hall : FeedAll (Connection.arrive net) (Connection.onMessage net layout) (fun _ ↦ True)
      conn chunks := feedAll_of_forall (fun _ ↦ trivial) chunks conn
  have hreceive (conn : Connection β) (_ : True) :
      (conn.onMessage net layout).1 = (layout.framing.cut (conn.held net)).1 ∧
        (conn.onMessage net layout).2.held net = (layout.framing.cut (conn.held net)).2 :=
    ⟨(onMessage_eq_cut net layout conn.buf).1, (onMessage_eq_cut net layout conn.buf).2.1⟩
  feed_of_resumable layout.framing.cut_append (fun conn ↦ net.content_append conn.buf) hreceive
    chunks conn (Framing.cut_of_not_complete hnothing) hall

/-- A connection with a refused header in front of its buffer delivers nothing any more. -/
theorem receive_refused (hrefused : layout.framing.Refused (conn.held net))
    (more : List Bytes) :
    (receive net layout conn more).1 = [] ∧
      (receive net layout conn more).2.held net = conn.held net ++ more.flatten := by
  obtain ⟨hmessages, hleft⟩ := receive_eq_cut hrefused.not_complete more
  rw [hmessages, hleft, Framing.cut_of_not_complete (hrefused.append _).not_complete]
  exact ⟨rfl, rfl⟩

/-- What a connection delivers of a stream of frames of which a part has arrived, in any chunks: the
longest sequence of messages that are accepted and have arrived completely. It keeps the rest of the
bytes, and it has been closed exactly when the header of the next message is refused and has
arrived; then nothing is delivered any more, whatever arrives. -/
theorem receive_frames (frames : List layout.framing.Frame) (chunks : List Bytes)
    (hchunks : chunks.flatten <+: Framing.wire frames) :
    ∃ count, IsGreatest (Framing.arrived frames chunks.flatten) count ∧
      (receive net layout (.start net) chunks).1 = (frames.take count).map Framing.Frame.message ∧
      chunks.flatten = Framing.wire (frames.take count) ++
        (receive net layout (.start net) chunks).2.held net ∧
      (0 < (receive net layout (.start net) chunks).2.shutdowns ↔
        ∃ frame, frames[count]? = some frame ∧ ¬ frame.Accepted ∧
          layout.size ≤ ((receive net layout (.start net) chunks).2.held net).length) ∧
      (0 < (receive net layout (.start net) chunks).2.shutdowns → ∀ more,
        (receive net layout (receive net layout (.start net) chunks).2 more).1 = [] ∧
        (receive net layout (receive net layout (.start net) chunks).2 more).2.held net =
          (receive net layout (.start net) chunks).2.held net ++ more.flatten) := by
  have hempty : (Connection.start net).held net = [] := net.content_empty
  have hshort : ∀ length, ¬ layout.framing.Complete ((Connection.start net).held net) length :=
    fun length ↦ hempty ▸ Framing.not_complete_nil length
  have hstart : (Connection.start net).ClosedIfRefused net layout := by
    refine iff_of_false (Nat.lt_irrefl 0) fun hrefused ↦ ?_
    have hsize := (refused_iff.mp hrefused).1
    rw [hempty] at hsize
    exact absurd hsize (Nat.not_le.mpr layout.size_pos)
  have hclosed : (receive net layout (.start net) chunks).2.ClosedIfRefused net layout :=
    feed_invariant (fun _ chunk ↦ closedIfRefused_step chunk) chunks _ hstart
  obtain ⟨hmessages, hleft⟩ := receive_eq_cut hshort chunks
  rw [hempty, List.nil_append] at hmessages hleft
  obtain ⟨count, hgreatest, hdelivered, hsplit, hrefused⟩ :=
    Framing.cut_frames frames chunks.flatten hchunks
  rw [← hmessages] at hdelivered
  rw [← hleft] at hsplit hrefused
  exact ⟨count, hgreatest, hdelivered, hsplit, hclosed.trans hrefused,
    fun hshutdown more ↦ receive_refused (hclosed.mp hshutdown) more⟩

end Receiving

end TradeServers.LengthHeader
