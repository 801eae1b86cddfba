import TradeServers.Slot

/-!
# The message codec of the log time server

`LengthHeaderCodec::send` writes a 49-byte header of space-padded slots, the body and the
delimiter `"@%&)"`. `LengthHeaderCodec::onMessage` searches the receive buffer for the delimiter
and hands every message in front of one to the callback. Both work on muduo's `net::Buffer`, which
is a parameter: the codec uses it as a queue of bytes.

`onMessage_eq_cut` relates one call of `onMessage` to the reference cut of the buffered bytes, as
long as every delimiter it reaches starts at a position that fits an `int`.
-/

set_option autoImplicit false
set_option relaxedAutoImplicit false

namespace TradeServers.LogTimeServer

open DelimitedStream PaddedField

/-! ### The delimiter and the header -/

/-- The constant `deli`. Its first character occurs nowhere else in it, so it has no border. -/
def deli : Delimiter UInt8 where
  symbols := ascii "@%&)"
  nonempty := by decide
  unbordered := by
    have hall : ∀ border ∈ (ascii "@%&)").inits, border <:+ ascii "@%&)" →
        border = [] ∨ border = ascii "@%&)" := by decide
    exact fun border hhead htail ↦ hall border (List.mem_inits _ _ |>.mpr hhead) htail

/-- The constant `deliLen`. -/
def deliLen : ℕ := 4

/-- The constant `headerLen`, the size of the packed struct `Header`. -/
def headerLen : ℕ := 49

theorem length_deli : deli.symbols.length = deliLen := rfl

/-- What `send` is given and `dealMessage` extracts: five header values and a body. -/
@[ext]
structure Message where
  cmd : Bytes
  format : Bytes
  userName : Bytes
  key : Bytes
  side : Bytes
  body : Bytes
deriving DecidableEq

/-- The header values are no longer than their slots `char[8]`, `char[4]`, `char[32]`, `char[4]`
and `char[1]`. -/
structure Message.Fits (message : Message) : Prop where
  cmd : message.cmd.length ≤ 8
  format : message.format.length ≤ 4
  userName : message.userName.length ≤ 32
  key : message.key.length ≤ 4
  side : message.side.length ≤ 1

/-- The struct `Header` as it is filled over a ground of one byte: a `memset`, then one `memcpy` per
slot. -/
def headerOver (filler : UInt8) (message : Message) : Bytes :=
  let head := List.replicate headerLen filler
  let head := memcpy head 0 message.cmd
  let head := memcpy head 8 message.format
  let head := memcpy head 12 message.userName
  let head := memcpy head 44 message.key
  let head := memcpy head 48 message.side
  head.take headerLen

/-- The struct `Header` as `send` fills it: the ground is spaces. -/
def header (message : Message) : Bytes := headerOver space message

/-- The bytes `send` puts in front of the delimiter. -/
def payload (message : Message) : Bytes := header message ++ message.body

/-- Copying a value to the start of a blank slot pads the value to the width of the slot. -/
theorem memcpy_slot {filler : UInt8} {width offset : ℕ} {before source : Bytes}
    (hoffset : before.length = offset) (hfit : source.length ≤ width) (after : Bytes) :
    memcpy (before ++ (List.replicate width filler ++ after)) offset source =
      before ++ pad width filler source ++ after := by
  have hrest : (List.replicate width filler ++ after).drop source.length =
      List.replicate (width - source.length) filler ++ after := by
    rw [List.drop_append_of_le_length (by rw [List.length_replicate]; exact hfit),
      List.drop_replicate]
  subst hoffset
  rw [memcpy, List.take_left, ← List.drop_drop, List.drop_left, hrest, pad]
  simp only [List.append_assoc]

/-- The padded slots of a header, in their order in the struct. -/
def slotsOver (filler : UInt8) (message : Message) : Bytes :=
  pad 8 filler message.cmd ++ pad 4 filler message.format ++ pad 32 filler message.userName ++
    pad 4 filler message.key ++ pad 1 filler message.side

/-- The slots that `send` pads with spaces. -/
def slots (message : Message) : Bytes := slotsOver space message

theorem length_slotsOver {message : Message} (filler : UInt8) (hfits : message.Fits) :
    (slotsOver filler message).length = headerLen := by
  simp only [slotsOver, List.length_append, length_pad hfits.cmd, length_pad hfits.format,
    length_pad hfits.userName, length_pad hfits.key, length_pad hfits.side, headerLen]

/-- The header of values that fit their slots is the sequence of the padded values: every copy
finds its slot still blank. -/
theorem headerOver_of_fits {message : Message} (filler : UInt8) (hfits : message.Fits) :
    headerOver filler message = slotsOver filler message := by
  have hblank : List.replicate headerLen filler = [] ++ (List.replicate 8 filler ++
      (List.replicate 4 filler ++ (List.replicate 32 filler ++ (List.replicate 4 filler ++
        (List.replicate 1 filler ++ []))))) := rfl
  have h8 : ([] ++ pad 8 filler message.cmd).length = 8 := length_pad hfits.cmd
  have h12 : ([] ++ pad 8 filler message.cmd ++ pad 4 filler message.format).length = 12 := by
    rw [List.length_append, h8, length_pad hfits.format]
  have h44 : ([] ++ pad 8 filler message.cmd ++ pad 4 filler message.format ++
      pad 32 filler message.userName).length = 44 := by
    rw [List.length_append, h12, length_pad hfits.userName]
  have h48 : ([] ++ pad 8 filler message.cmd ++ pad 4 filler message.format ++
      pad 32 filler message.userName ++ pad 4 filler message.key).length = 48 := by
    rw [List.length_append, h44, length_pad hfits.key]
  have h0 : ([] : Bytes).length = 0 := rfl
  unfold headerOver
  dsimp only
  rw [hblank, memcpy_slot h0 hfits.cmd, memcpy_slot h8 hfits.format,
    memcpy_slot h12 hfits.userName, memcpy_slot h44 hfits.key, memcpy_slot h48 hfits.side,
    List.append_nil]
  exact List.take_of_length_le (length_slotsOver filler hfits).le

theorem length_slots {message : Message} (hfits : message.Fits) :
    (slots message).length = headerLen :=
  length_slotsOver space hfits

theorem header_of_fits {message : Message} (hfits : message.Fits) :
    header message = slots message :=
  headerOver_of_fits space hfits

theorem length_payload {message : Message} (hfits : message.Fits) :
    (payload message).length = headerLen + message.body.length := by
  rw [payload, List.length_append, header_of_fits hfits, length_slots hfits]

/-! ### The network buffer -/

/-- What the codec relies on of muduo's `net::Buffer`, held by a value of type `β`: `content` is
what `peek()` and `readableBytes()` show, `append` adds bytes behind it, and `retrieve` drops bytes
from its front (all of them when there are no more). -/
structure NetBuffer (β : Type) where
  empty : β
  content : β → Bytes
  append : β → Bytes → β
  retrieve : β → ℕ → β
  content_empty : content empty = []
  content_append : ∀ buf data, content (append buf data) = content buf ++ data
  content_retrieve : ∀ buf count, content (retrieve buf count) = (content buf).drop count

/-- A buffer that is the list of its readable bytes. -/
def NetBuffer.ofBytes : NetBuffer Bytes where
  empty := []
  content := id
  append := (· ++ ·)
  retrieve := fun buf count ↦ buf.drop count
  content_empty := rfl
  content_append := fun _ _ ↦ rfl
  content_retrieve := fun _ _ ↦ rfl

/-- The number of bytes `onMessage` retrieves is never zero, even when the sum overflows. -/
theorem toSize_addInt32_pos {pos : ℤ} (hlow : 0 ≤ pos) (hhigh : pos < 2 ^ 31) :
    0 < toSize (addInt32 pos deliLen) := by
  unfold toSize addInt32 deliLen
  rw [Int.bmod_def]
  split_ifs <;> omega

section Buffer

variable {β : Type} (net : NetBuffer β)

/-- `LengthHeaderCodec::send`: the buffer it hands to the connection. -/
def send (message : Message) : β :=
  let buf := net.empty
  let buf := net.append buf (header message)
  let buf := net.append buf message.body
  net.append buf deli.symbols

theorem content_send (message : Message) :
    net.content (send net message) = payload message ++ deli.symbols := by
  simp only [send, net.content_append, net.content_empty, payload, List.nil_append]

/-- `LengthHeaderCodec::onMessage`: the messages handed to the callback, and the buffer it leaves.
The position of the delimiter is cast to an `int`. -/
def onMessage (buf : β) : List Bytes × β :=
  if _hsize : deliLen ≤ (net.content buf).length then
    let pos := toInt32 (find (net.content buf) deli.symbols)
    if _hpos : 0 ≤ pos then
      let msg := (net.content buf).take (toSize pos)
      let rest := onMessage (net.retrieve buf (toSize (addInt32 pos deliLen)))
      (msg :: rest.1, rest.2)
    else ([], buf)
  else ([], buf)
termination_by (net.content buf).length
decreasing_by
  have hretrieved : 0 < toSize (addInt32 pos deliLen) :=
    toSize_addInt32_pos _hpos (toInt32_lt _)
  have hreadable : 0 < (net.content buf).length := lt_of_lt_of_le (by decide) _hsize
  rw [net.content_retrieve, List.length_drop]
  exact Nat.sub_lt hreadable hretrieved

/-- The loop stops at a position that the cast makes negative. -/
theorem onMessage_of_neg {buf : β} (hpos : toInt32 (find (net.content buf) deli.symbols) < 0) :
    onMessage net buf = ([], buf) := by
  unfold onMessage
  rw [dif_neg (not_le.mpr hpos)]
  split_ifs <;> rfl

/-- Without a delimiter the search returns `npos`, which the cast makes negative. -/
theorem onMessage_of_none {buf : β}
    (hnone : firstOccurrence deli.symbols (net.content buf) = none) :
    onMessage net buf = ([], buf) := by
  apply onMessage_of_neg
  rw [find_of_none hnone]
  decide

/-- A delimiter from position 2³¹ up to 2³² is not seen. -/
theorem onMessage_of_high {buf : β} {position : ℕ}
    (hfirst : firstOccurrence deli.symbols (net.content buf) = some position)
    (hlow : 2 ^ 31 ≤ position) (hhigh : position < 2 ^ 32) :
    onMessage net buf = ([], buf) := by
  apply onMessage_of_neg
  rw [find_of_some hfirst]
  exact toInt32_neg_of_high hlow hhigh

/-- A delimiter whose end fits an `int` ends a message, and the loop goes on behind it. -/
theorem onMessage_of_some {buf : β} {position : ℕ}
    (hfirst : firstOccurrence deli.symbols (net.content buf) = some position)
    (hint : position + deliLen < 2 ^ 31) :
    onMessage net buf =
      ((net.content buf).take position ::
        (onMessage net (net.retrieve buf (position + deliLen))).1,
        (onMessage net (net.retrieve buf (position + deliLen))).2) := by
  have hroom := add_length_le_of_firstOccurrence hfirst
  rw [length_deli] at hroom
  have hcast : toInt32 (find (net.content buf) deli.symbols) = position := by
    rw [find_of_some hfirst, toInt32_of_lt (by omega)]
  have hsum : addInt32 position deliLen = (position + deliLen : ℕ) := by
    rw [addInt32_of_bounds] <;> omega
  conv_lhs => unfold onMessage
  rw [dif_pos (by omega)]
  simp only [hcast, hsum, toSize_natCast (show position < 2 ^ 64 by omega),
    toSize_natCast (show position + deliLen < 2 ^ 64 by omega)]
  rw [dif_pos (by omega)]

/-- One call of `onMessage` cuts the buffered bytes, when every delimiter it reaches ends within
the range of an `int`. -/
theorem onMessage_eq_cut {buf : β}
    (hint : ∀ piece ∈ (deli.cut (net.content buf)).1, piece.length + deliLen < 2 ^ 31) :
    (onMessage net buf).1 = (deli.cut (net.content buf)).1 ∧
      net.content (onMessage net buf).2 = (deli.cut (net.content buf)).2 := by
  induction hcontent : net.content buf using deli.cut_induction generalizing buf with
  | absent stream hnone =>
    rw [onMessage_of_none net (hcontent ▸ hnone), deli.cut_of_none hnone]
    exact ⟨rfl, hcontent⟩
  | found stream position hfirst ih =>
    have hposition : position ≤ stream.length := (firstOccurrence_eq_some_iff.mp hfirst).1
    have hcut := deli.cut_of_some hfirst
    rw [hcontent, hcut] at hint
    have hhead := hint _ (List.mem_cons_self ..)
    rw [List.length_take_of_le hposition] at hhead
    have hrest : net.content (net.retrieve buf (position + deliLen)) =
        stream.drop (position + deli.symbols.length) := by
      rw [net.content_retrieve, hcontent, length_deli]
    obtain ⟨hmessages, hleft⟩ := ih
      (by rw [hrest]; exact fun piece hpiece ↦ hint piece (List.mem_cons_of_mem _ hpiece)) hrest
    rw [onMessage_of_some net (hcontent ▸ hfirst) hhead, hcut]
    exact ⟨by rw [hcontent, hmessages], hleft⟩

end Buffer

end TradeServers.LogTimeServer
