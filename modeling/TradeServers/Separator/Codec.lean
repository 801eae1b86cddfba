import TradeServers.StatementText

/-!
# The codec with a plain separator

The first of the delimiter servers puts `"@#$"` behind every message. Its `onMessage` makes a C
string of the receive buffer, which goes on behind the readable bytes to the next zero byte in
memory, and takes a message and the separator behind it out of the buffer in two rounds.

- `right_iff`: for which chunks the codec delivers the right messages at every time, whatever is in
  memory behind the buffer.
- `stalled_by_nul`: a zero byte ends the messages of a connection for ever.
- `delivered_iff`: which messages arrive when every chunk ends with a frame.
-/

set_option autoImplicit false
set_option relaxedAutoImplicit false

namespace TradeServers.Separator

open DelimitedStream

/-! ### The codec -/

/-- The constant `deli`. Its first character occurs nowhere else in it, so it has no border. -/
def deli : Delimiter UInt8 where
  symbols := ascii "@#$"
  nonempty := by decide
  unbordered := by
    have hall : ∀ border ∈ (ascii "@#$").inits, border <:+ ascii "@#$" →
        border = [] ∨ border = ascii "@#$" := by decide
    exact fun border hhead htail ↦ hall border (List.mem_inits _ _ |>.mpr hhead) htail

/-- The constant `deliLen`. -/
def deliLen : ℕ := 3

theorem length_deli : deli.symbols.length = deliLen := by decide

theorem nul_not_mem_deli : 0 ∉ deli.symbols := by decide

/-- `LengthHeaderCodec::send`: the bytes it hands to the connection. The length of a `StringPiece`
is an `int`, so that this is about messages of fewer than 2³¹ bytes; `delivered_iff` sends no
others. -/
def send (message : Bytes) : Bytes := message ++ deli.symbols

theorem toSize_pos {pos : ℤ} (hpos : 0 < pos) (hhigh : pos < 2 ^ 31) : 0 < toSize pos := by
  unfold toSize
  omega

/-- The loop of `LengthHeaderCodec::onMessage` with what is in memory behind the readable bytes: the
messages handed to the callback and the bytes that stay in the buffer, or `none` when the loop goes
on for ever. `retrieve` of more bytes than there are empties the buffer. -/
def onMessage (behind : Bytes) (buf : Bytes) : Option (List Bytes × Bytes) :=
  if _hreadable : deliLen ≤ buf.length then
    let pos := toInt32 (find (cString (buf ++ behind)) deli.symbols)
    if pos = -1 then some ([], buf)
    else if pos = 0 then onMessage behind (buf.drop deliLen)
    else if _hpos : 0 < pos then
      (onMessage behind (buf.drop (toSize pos))).map fun rest ↦
        ((buf ++ behind).take (toSize pos) :: rest.1, rest.2)
    -- No branch of the loop is taken, and nothing has changed.
    else none
  else some ([], buf)
termination_by buf.length
decreasing_by
  all_goals
    have hreadable : 0 < buf.length := lt_of_lt_of_le (by decide) _hreadable
    rw [List.length_drop]
  · exact Nat.sub_lt hreadable (by decide)
  · exact Nat.sub_lt hreadable (toSize_pos _hpos (toInt32_lt _))

/-- The codec over the chunks of a connection, each with what is in memory behind it. -/
def receive : Bytes → List (Bytes × Bytes) → Option (List Bytes × Bytes)
  | buf, [] => some ([], buf)
  | buf, (chunk, behind) :: arrivals =>
    (onMessage behind (buf ++ chunk)).bind fun now ↦
      (receive now.2 arrivals).map fun later ↦ (now.1 ++ later.1, later.2)

section Rounds

variable {buf behind : Bytes} {position : ℕ}

theorem onMessage_of_short (hshort : buf.length < deliLen) :
    onMessage behind buf = some ([], buf) := by
  unfold onMessage
  rw [dif_neg (not_le.mpr hshort)]

/-- Without a separator the search returns `npos`, which the cast makes -1. -/
theorem onMessage_of_none (hnone : firstOccurrence deli.symbols (cString (buf ++ behind)) = none) :
    onMessage behind buf = some ([], buf) := by
  have hcast : toInt32 npos = -1 := by decide
  unfold onMessage
  simp [find_of_none hnone, hcast]

/-- A separator at the front is dropped. -/
theorem onMessage_of_starts (hstarts : deli.symbols <+: buf) :
    onMessage behind buf = onMessage behind (buf.drop deliLen) := by
  obtain ⟨rest, rfl⟩ := hstarts
  have hseen : cString (deli.symbols ++ rest ++ behind) =
      deli.symbols ++ cString (rest ++ behind) := by
    rw [List.append_assoc, cString_append_of_nul_not_mem nul_not_mem_deli]
  have hfirst : firstOccurrence deli.symbols (cString (deli.symbols ++ rest ++ behind)) =
      some 0 := by
    rw [hseen]
    exact firstOccurrence_eq_some_iff.mpr ⟨Nat.zero_le _, List.prefix_append _ _, by simp⟩
  have hreadable : deliLen ≤ (deli.symbols ++ rest).length := by
    rw [List.length_append, length_deli]
    omega
  conv_lhs => unfold onMessage
  rw [dif_pos hreadable, find_of_some hfirst]
  rfl

/-- The text in front of a separator is a message, even where it goes on behind the buffer. -/
theorem onMessage_of_pos
    (hfirst : firstOccurrence deli.symbols (cString (buf ++ behind)) = some position)
    (hreadable : deliLen ≤ buf.length) (hpos : 0 < position) (hint : position < 2 ^ 31) :
    onMessage behind buf = (onMessage behind (buf.drop position)).map fun rest ↦
      ((buf ++ behind).take position :: rest.1, rest.2) := by
  have hcast : toInt32 (find (cString (buf ++ behind)) deli.symbols) = position := by
    rw [find_of_some hfirst, toInt32_of_lt hint]
  have hsize : toSize position = position := toSize_natCast (by omega)
  conv_lhs => unfold onMessage
  rw [dif_pos hreadable]
  simp only [hcast, hsize]
  rw [if_neg (by omega), if_neg (by omega), dif_pos (by omega)]

/-- A separator in the buffer takes two rounds: one for the message and one for itself. -/
theorem onMessage_of_found
    (hfirst : firstOccurrence deli.symbols (cString (buf ++ behind)) = some position)
    (hroom : position + deliLen ≤ buf.length) (hint : position < 2 ^ 31) :
    onMessage behind buf = (onMessage behind (buf.drop (position + deliLen))).map fun rest ↦
      ([buf.take position].filter (· ≠ []) ++ rest.1, rest.2) := by
  have hstarts : deli.symbols <+: buf.drop position := by
    have hseen : cString (buf ++ behind) <+: buf ++ behind := List.takeWhile_prefix _
    have hthere := (firstOccurrence_eq_some_iff.mp hfirst).2.1.trans (hseen.drop position)
    rw [List.drop_append_of_le_length (by omega)] at hthere
    refine List.prefix_of_prefix_length_le hthere (List.prefix_append _ _) ?_
    rw [length_deli, List.length_drop]
    omega
  have hdrop : onMessage behind (buf.drop position) =
      onMessage behind (buf.drop (position + deliLen)) := by
    rw [onMessage_of_starts hstarts, List.drop_drop]
  by_cases hpos : 0 < position
  · have hmessage : buf.take position ≠ [] := by
      rw [Ne, List.take_eq_nil_iff]
      rintro (hzero | hnil)
      · omega
      · simp [hnil, deliLen] at hroom
    rw [onMessage_of_pos hfirst (by omega) hpos hint, hdrop,
      List.take_append_of_le_length (by omega)]
    simp [hmessage]
  · obtain rfl : position = 0 := by omega
    rw [List.drop_zero] at hdrop
    rw [hdrop]
    simp

end Rounds

/-! ### What is right -/

/-- The messages that are complete in front of the first zero byte; empty ones do not count. -/
def pieces (stream : Bytes) : List Bytes := (deli.cut (cString stream)).1.filter (· ≠ [])

/-- The bytes behind them. -/
def remainder (stream : Bytes) : Bytes :=
  (deli.cut (cString stream)).2 ++ stream.drop (cString stream).length

/-- The codec has no reason to look behind the buffer: there is a zero byte in it, or less than a
separator is left of it behind the complete messages. -/
def Closed (stream : Bytes) : Prop :=
  0 ∈ stream ∨ (deli.cut stream).2.length < deliLen

section Right

variable {buf behind stream : Bytes} {position : ℕ}

theorem pieces_of_none (hnone : firstOccurrence deli.symbols (cString stream) = none) :
    pieces stream = [] := by
  rw [pieces, deli.cut_of_none hnone, List.filter_nil]

theorem remainder_of_none (hnone : firstOccurrence deli.symbols (cString stream) = none) :
    remainder stream = stream := by
  rw [remainder, deli.cut_of_none hnone]
  exact (List.prefix_append_drop (List.takeWhile_prefix _)).symm

theorem take_cString {count : ℕ} (hcount : count ≤ (cString stream).length) :
    (cString stream).take count = stream.take count := by
  obtain ⟨rest, hrest⟩ : cString stream <+: stream := List.takeWhile_prefix _
  conv_rhs => rw [← hrest]
  exact (List.take_append_of_le_length hcount).symm

theorem nul_not_mem_take {count : ℕ} (hcount : count ≤ (cString stream).length) :
    0 ∉ stream.take count := by
  rw [← take_cString hcount]
  exact fun hmem ↦ nul_not_mem_cString stream (List.mem_of_mem_take hmem)

/-- What is dropped within a C string is dropped from it. -/
theorem cString_drop {count : ℕ} (hcount : count ≤ (cString stream).length) :
    cString (stream.drop count) = (cString stream).drop count := by
  have hlength : (stream.take count).length = count := by
    rw [← take_cString hcount, List.length_take_of_le hcount]
  conv_rhs => rw [← List.take_append_drop count stream,
    cString_append_of_nul_not_mem (nul_not_mem_take hcount),
    List.drop_append_of_le_length hlength.ge, List.drop_of_length_le hlength.le, List.nil_append]

theorem cut_of_first (hfirst : firstOccurrence deli.symbols (cString stream) = some position) :
    deli.cut (cString stream) = (stream.take position ::
      (deli.cut (cString (stream.drop (position + deliLen)))).1,
      (deli.cut (cString (stream.drop (position + deliLen)))).2) := by
  have hroom := add_length_le_of_firstOccurrence hfirst
  rw [deli.cut_of_some hfirst, take_cString (by omega), ← cString_drop hroom, length_deli]

theorem pieces_of_first (hfirst : firstOccurrence deli.symbols (cString stream) = some position) :
    pieces stream = [stream.take position].filter (· ≠ []) ++
      pieces (stream.drop (position + deliLen)) := by
  rw [pieces, cut_of_first hfirst, pieces, ← List.filter_append, List.singleton_append]

theorem remainder_of_first
    (hfirst : firstOccurrence deli.symbols (cString stream) = some position) :
    remainder stream = remainder (stream.drop (position + deliLen)) := by
  have hroom := add_length_le_of_firstOccurrence hfirst
  rw [length_deli] at hroom
  rw [remainder, cut_of_first hfirst, remainder, cString_drop hroom, List.length_drop,
    List.drop_drop, Nat.add_sub_cancel' hroom]

theorem closed_iff_of_nul (hnul : 0 ∉ stream) :
    Closed stream ↔ (deli.cut (cString stream)).2.length < deliLen := by
  rw [cString_eq_of_nul hnul]
  exact or_iff_right hnul

theorem closed_drop_iff
    (hfirst : firstOccurrence deli.symbols (cString stream) = some position) :
    Closed (stream.drop (position + deliLen)) ↔ Closed stream := by
  have hroom := add_length_le_of_firstOccurrence hfirst
  rw [length_deli] at hroom
  by_cases hnul : 0 ∈ stream
  · have hsplit := hnul
    rw [← List.take_append_drop (position + deliLen) stream] at hsplit
    have hrest := (List.mem_append.mp hsplit).resolve_left (nul_not_mem_take hroom)
    exact iff_of_true (.inl hrest) (.inl hnul)
  · have hrest : 0 ∉ stream.drop (position + deliLen) := fun hmem ↦
      hnul (List.mem_of_mem_drop hmem)
    rw [closed_iff_of_nul hnul, closed_iff_of_nul hrest, cut_of_first hfirst]

/-- The search that goes on behind a closed buffer finds what it would find inside. -/
theorem firstOccurrence_seen (hclosed : Closed buf) (hreadable : deliLen ≤ buf.length) :
    firstOccurrence deli.symbols (cString (buf ++ behind)) =
      firstOccurrence deli.symbols (cString buf) := by
  by_cases hnul : 0 ∈ buf
  · rw [cString_append_of_nul hnul]
  · rw [cString_append_of_nul_not_mem hnul, cString_eq_of_nul hnul]
    cases hfirst : firstOccurrence deli.symbols buf with
    | none =>
      have hshort := hclosed.resolve_left hnul
      rw [deli.cut_of_none hfirst] at hshort
      exact absurd hreadable (not_le.mpr hshort)
    | some position => exact firstOccurrence_append _ hfirst

/-- Whatever is behind a closed buffer, its complete messages are delivered. -/
theorem onMessage_eq (hclosed : Closed buf) (hint : (cString buf).length < 2 ^ 31) :
    onMessage behind buf = some (pieces buf, remainder buf) := by
  induction hseen : cString buf using deli.cut_induction generalizing buf with
  | absent text hnone =>
    rw [← hseen] at hnone
    rw [pieces_of_none hnone, remainder_of_none hnone]
    by_cases hreadable : deliLen ≤ buf.length
    · exact onMessage_of_none (by rw [firstOccurrence_seen hclosed hreadable, hnone])
    · exact onMessage_of_short (not_le.mp hreadable)
  | found text position hfirst ih =>
    rw [← hseen] at hfirst
    have hroom := add_length_le_of_firstOccurrence hfirst
    rw [length_deli] at hroom
    have hprefix : cString buf <+: buf := List.takeWhile_prefix _
    have hlength := hprefix.length_le
    have hreadable : deliLen ≤ buf.length := by omega
    have hrest := ih ((closed_drop_iff hfirst).mpr hclosed)
      (by rw [cString_drop hroom, List.length_drop]; omega)
      (by rw [cString_drop hroom, hseen, length_deli])
    rw [onMessage_of_found (by rw [firstOccurrence_seen hclosed hreadable, hfirst]) (by omega)
      (by omega), hrest, pieces_of_first hfirst, remainder_of_first hfirst]
    rfl

/-- A separator behind an open buffer makes a message of what is left in it. -/
theorem onMessage_of_open (hopen : ¬ Closed buf) (hint : buf.length < 2 ^ 31) :
    onMessage deli.symbols buf = some (pieces buf ++ [remainder buf], []) := by
  have hnul : 0 ∉ buf := fun hmem ↦ hopen (.inl hmem)
  have hbehind : cString (buf ++ deli.symbols) = buf ++ (deli.symbols ++ []) := by
    rw [cString_append_of_nul_not_mem hnul, cString_eq_of_nul nul_not_mem_deli, List.append_nil]
  induction hseen : cString buf using deli.cut_induction generalizing buf with
  | absent text hnone =>
    rw [← hseen] at hnone
    have hfirst : firstOccurrence deli.symbols (cString (buf ++ deli.symbols)) =
        some buf.length := by
      rw [cString_eq_of_nul hnul] at hnone
      rw [hbehind, deli.firstOccurrence_frame (firstOccurrence_eq_none_iff.mp hnone)]
    have hlong : deliLen ≤ buf.length := by
      rwa [closed_iff_of_nul hnul, deli.cut_of_none hnone, cString_eq_of_nul hnul, not_lt]
        at hopen
    have hpos : 0 < buf.length := lt_of_lt_of_le (by decide) hlong
    rw [onMessage_of_pos hfirst hlong hpos hint, List.drop_length, List.take_left,
      onMessage_of_short (by decide), pieces_of_none hnone, remainder_of_none hnone]
    rfl
  | found text position hfirst ih =>
    rw [← hseen] at hfirst
    have hroom := add_length_le_of_firstOccurrence hfirst
    rw [length_deli] at hroom
    have hthere : firstOccurrence deli.symbols (cString (buf ++ deli.symbols)) =
        some position := by
      rw [cString_eq_of_nul hnul] at hfirst
      rw [hbehind, firstOccurrence_append _ hfirst]
    have hrest : 0 ∉ buf.drop (position + deliLen) := fun hmem ↦
      hnul (List.mem_of_mem_drop hmem)
    have hlength : position + deliLen ≤ buf.length := by
      rwa [cString_eq_of_nul hnul] at hroom
    have hlater := ih (fun hclosed ↦ hopen ((closed_drop_iff hfirst).mp hclosed))
      (by rw [List.length_drop]; omega) hrest
      (by rw [cString_append_of_nul_not_mem hrest, cString_eq_of_nul nul_not_mem_deli,
        List.append_nil])
      (by rw [cString_drop hroom, hseen, length_deli])
    rw [onMessage_of_found hthere hlength (by omega), hlater, pieces_of_first hfirst,
      remainder_of_first hfirst, List.append_assoc]
    rfl

/-! ### Chunks -/

theorem nul_not_mem_cut (stream : Bytes) : 0 ∉ (deli.cut (cString stream)).2 := by
  intro hmem
  apply nul_not_mem_cString stream
  rw [← deli.flatten_cut (cString stream)]
  exact List.mem_append_right _ hmem

theorem nul_mem_drop_iff : 0 ∈ stream.drop (cString stream).length ↔ 0 ∈ stream := by
  conv_rhs => rw [← List.take_append_drop (cString stream).length stream, List.mem_append,
    or_iff_right (nul_not_mem_take le_rfl)]

theorem nul_mem_remainder_iff : 0 ∈ remainder stream ↔ 0 ∈ stream := by
  rw [remainder, List.mem_append, or_iff_right (nul_not_mem_cut stream), nul_mem_drop_iff]

/-- What is seen of the bytes that arrive behind a stream: nothing once it has a zero byte. -/
def seenBehind (stream more : Bytes) : Bytes := if 0 ∈ stream then [] else cString more

theorem cString_append (stream more : Bytes) :
    cString (stream ++ more) = cString stream ++ seenBehind stream more := by
  by_cases hnul : 0 ∈ stream
  · rw [cString_append_of_nul hnul, seenBehind, if_pos hnul, List.append_nil]
  · rw [cString_append_of_nul_not_mem hnul, seenBehind, if_neg hnul, cString_eq_of_nul hnul]

theorem cString_remainder (stream : Bytes) :
    cString (remainder stream) = (deli.cut (cString stream)).2 := by
  have hnil : cString (stream.drop (cString stream).length) = [] := by
    rw [cString_drop le_rfl, List.drop_length]
  rw [remainder, cString_append_of_nul_not_mem (nul_not_mem_cut stream), hnil, List.append_nil]

theorem remainder_of_nul (hnul : 0 ∉ stream) :
    remainder stream = (deli.cut (cString stream)).2 := by
  rw [← cString_remainder, cString_eq_of_nul (mt nul_mem_remainder_iff.mp hnul)]

theorem cString_remainder_append (first second : Bytes) :
    cString (remainder first ++ second) =
      (deli.cut (cString first)).2 ++ seenBehind first second := by
  rw [cString_append, cString_remainder, seenBehind, seenBehind]
  simp only [nul_mem_remainder_iff]

/-- The complete messages may be taken out of a stream at any time. -/
theorem cut_append (first second : Bytes) :
    deli.cut (cString (first ++ second)) =
      ((deli.cut (cString first)).1 ++ (deli.cut (cString (remainder first ++ second))).1,
        (deli.cut (cString (remainder first ++ second))).2) := by
  rw [cString_append, cString_remainder_append, deli.cut_append]

theorem pieces_append (first second : Bytes) :
    pieces (first ++ second) = pieces first ++ pieces (remainder first ++ second) := by
  rw [pieces, cut_append, List.filter_append, pieces, pieces]

theorem remainder_append (first second : Bytes) :
    remainder (first ++ second) = remainder (remainder first ++ second) := by
  have hunseen : (first ++ second).drop (cString (first ++ second)).length =
      (remainder first ++ second).drop (cString (remainder first ++ second)).length := by
    have hprefix : cString first <+: first := List.takeWhile_prefix _
    have hlength := hprefix.length_le
    rw [cString_append, cString_remainder_append, remainder, List.length_append,
      List.length_append, List.append_assoc, List.drop_length_add_append, ← List.drop_drop,
      List.drop_append_of_le_length hlength]
  have hleft := congrArg Prod.snd (cut_append first second)
  exact congrArg₂ (· ++ ·) hleft hunseen

/-- Taking them out does not change whether the codec has to look behind. -/
theorem closed_remainder_append (first second : Bytes) :
    Closed (remainder first ++ second) ↔ Closed (first ++ second) := by
  have hmem : 0 ∈ remainder first ++ second ↔ 0 ∈ first ++ second := by
    rw [List.mem_append, nul_mem_remainder_iff, List.mem_append]
  by_cases hnul : 0 ∈ first ++ second
  · exact iff_of_true (.inl (hmem.mpr hnul)) (.inl hnul)
  · have hleft := congrArg Prod.snd (cut_append first second)
    rw [closed_iff_of_nul hnul, closed_iff_of_nul (mt hmem.mp hnul), hleft]

/-- Nothing more can be taken out of what is left. -/
theorem again (stream : Bytes) :
    pieces (remainder stream) = [] ∧ remainder (remainder stream) = remainder stream := by
  have hpieces := pieces_append stream []
  have hremainder := remainder_append stream []
  rw [List.append_nil, List.append_nil] at hpieces hremainder
  exact ⟨List.self_eq_append_right.mp hpieces, hremainder.symm⟩

/-- A closed buffer leaves room for a chunk. -/
theorem Closed.length_lt (hclosed : Closed stream) (hint : (cString stream).length < 2 ^ 31)
    {chunk : Bytes} (hchunk : chunk.length + deliLen ≤ 2 ^ 31) :
    (cString (remainder stream ++ chunk)).length < 2 ^ 31 := by
  have hcut := congrArg List.length (deli.flatten_cut (cString stream))
  rw [List.length_append] at hcut
  rw [cString_remainder_append, List.length_append, seenBehind]
  by_cases hnul : 0 ∈ stream
  · rw [if_pos hnul, List.length_nil]
    omega
  · have hprefix : cString chunk <+: chunk := List.takeWhile_prefix _
    have hseen := hprefix.length_le
    have hleft := (closed_iff_of_nul hnul).mp hclosed
    rw [if_neg hnul]
    omega

/-- Chunks that each leave the buffer closed are received as one stream. -/
theorem receive_eq (arrivals : List (Bytes × Bytes)) : ∀ stream : Bytes,
    (cString stream).length < 2 ^ 31 →
    (∀ earlier, earlier <+: arrivals.map Prod.fst → Closed (stream ++ earlier.flatten)) →
    (∀ chunk ∈ arrivals.map Prod.fst, chunk.length + deliLen ≤ 2 ^ 31) →
    receive (remainder stream) arrivals =
      some (pieces (remainder stream ++ (arrivals.map Prod.fst).flatten),
        remainder (remainder stream ++ (arrivals.map Prod.fst).flatten)) := by
  induction arrivals with
  | nil =>
    intro stream _ _ _
    simp [receive, again]
  | cons arrival arrivals ih =>
    obtain ⟨chunk, behind⟩ := arrival
    have hmap : ((chunk, behind) :: arrivals).map Prod.fst = chunk :: arrivals.map Prod.fst := rfl
    intro stream hint hclosed hchunks
    rw [hmap] at hclosed hchunks ⊢
    have hnow : Closed (remainder stream ++ chunk) := by
      rw [closed_remainder_append]
      simpa using hclosed [chunk] (by simp)
    have hseen : (cString (remainder stream ++ chunk)).length < 2 ^ 31 := by
      have hstart : Closed stream := by simpa using hclosed [] List.nil_prefix
      exact hstart.length_lt hint (hchunks chunk (List.mem_cons_self ..))
    have hlater := ih (remainder stream ++ chunk) hseen
      (fun earlier hearlier ↦ by
        rw [List.append_assoc, closed_remainder_append, ← List.flatten_cons]
        exact hclosed (chunk :: earlier) (by simpa using hearlier))
      (fun later hlater ↦ hchunks later (List.mem_cons_of_mem _ hlater))
    rw [receive, onMessage_eq hnow hseen, Option.bind_some, hlater, Option.map_some,
      List.flatten_cons, ← List.append_assoc, pieces_append (remainder stream ++ chunk),
      remainder_append (remainder stream ++ chunk)]

end Right

/-! ### The runs of a connection -/

section Runs

variable {arrivals : List (Bytes × Bytes)} {chunk behind buf : Bytes}

theorem closed_nil : Closed [] := by
  have hnone : firstOccurrence deli.symbols [] = none := by decide
  right
  rw [deli.cut_of_none hnone]
  decide

theorem receive_of_closed
    (hclosed : ∀ earlier, earlier <+: arrivals.map Prod.fst → Closed earlier.flatten)
    (hchunks : ∀ chunk ∈ arrivals.map Prod.fst, chunk.length + deliLen ≤ 2 ^ 31) :
    receive [] arrivals = some (pieces (arrivals.map Prod.fst).flatten,
      remainder (arrivals.map Prod.fst).flatten) := by
  have hnone : firstOccurrence deli.symbols (cString []) = none := by decide
  have hall := receive_eq arrivals [] (by decide) hclosed hchunks
  rwa [remainder_of_none hnone, List.nil_append] at hall

theorem receive_concat (messages : List Bytes) (left : Bytes) :
    ∀ buf, receive buf arrivals = some (messages, left) →
      receive buf (arrivals ++ [(chunk, behind)]) =
        (onMessage behind (left ++ chunk)).map fun now ↦ (messages ++ now.1, now.2) := by
  induction arrivals generalizing messages with
  | nil =>
    intro buf hreceive
    obtain ⟨rfl, rfl⟩ := Prod.mk.inj (Option.some.inj hreceive)
    cases hnow : onMessage behind (buf ++ chunk) <;> simp [receive, hnow]
  | cons arrival arrivals ih =>
    intro buf hreceive
    obtain ⟨now, hnow, hlater⟩ := Option.bind_eq_some_iff.mp hreceive
    obtain ⟨later, hrest, hboth⟩ := Option.map_eq_some_iff.mp hlater
    obtain ⟨rfl, rfl⟩ := Prod.mk.inj hboth
    rw [List.cons_append, receive, hnow, Option.bind_some, ih later.1 now.2 hrest,
      Option.map_map]
    simp only [Function.comp_def, List.append_assoc]

/-- The last of the chunks may have a separator behind it. -/
theorem receive_of_open {earlier : List Bytes}
    (hclosed : ∀ before, before <+: earlier → Closed before.flatten)
    (hopen : ¬ Closed (earlier.flatten ++ chunk))
    (hchunks : ∀ other ∈ earlier ++ [chunk], other.length + deliLen ≤ 2 ^ 31) :
    receive [] (earlier.map (fun other ↦ (other, [])) ++ [(chunk, deli.symbols)]) =
      some (pieces (earlier.flatten ++ chunk) ++ [remainder (earlier.flatten ++ chunk)], []) := by
  have hmap : (earlier.map fun other ↦ ((other, []) : Bytes × Bytes)).map Prod.fst = earlier := by
    simp [Function.comp_def]
  have hbefore : receive [] (earlier.map fun other ↦ (other, [])) =
      some (pieces earlier.flatten, remainder earlier.flatten) := by
    rw [receive_of_closed (by rwa [hmap]), hmap]
    rw [hmap]
    exact fun other hother ↦ hchunks other (List.mem_append_left _ hother)
  have hstill : ¬ Closed (remainder earlier.flatten ++ chunk) := by
    rwa [closed_remainder_append]
  have hint : (remainder earlier.flatten ++ chunk).length < 2 ^ 31 := by
    have hnul : 0 ∉ earlier.flatten := fun hmem ↦ hopen (.inl (List.mem_append_left _ hmem))
    have hleft := (closed_iff_of_nul hnul).mp (hclosed earlier (List.prefix_refl _))
    have hchunk := hchunks chunk (List.mem_append_right _ (List.mem_singleton_self _))
    rw [← remainder_of_nul hnul] at hleft
    rw [List.length_append]
    omega
  rw [receive_concat _ _ [] hbefore, onMessage_of_open hstill hint, Option.map_some,
    ← List.append_assoc, ← pieces_append, ← remainder_append]

/-- The codec delivers the complete messages at every time, whatever is in memory behind its buffer,
exactly when it never has to look there: no chunk without a zero byte in front of it leaves three
bytes or more of an incomplete message. -/
theorem right_iff (chunks : List Bytes)
    (hchunks : ∀ chunk ∈ chunks, chunk.length + deliLen ≤ 2 ^ 31) :
    (∀ arrivals : List (Bytes × Bytes), arrivals.map Prod.fst <+: chunks →
      (receive [] arrivals).map Prod.fst = some (pieces (arrivals.map Prod.fst).flatten)) ↔
      ∀ earlier, earlier <+: chunks → Closed earlier.flatten := by
  constructor
  · intro hright earlier hearlier
    have hall : ∀ before, before <+: earlier → Closed before.flatten := by
      induction earlier using List.reverseRecOn with
      | nil =>
        intro before hbefore
        rw [List.prefix_nil.mp hbefore]
        exact closed_nil
      | append_singleton earlier chunk ih =>
        have hclosed := ih ((List.prefix_append _ _).trans hearlier)
        intro before hbefore
        rcases List.prefix_concat_iff.mp hbefore with rfl | hshorter
        · by_contra hopen
          rw [List.flatten_append, List.flatten_singleton] at hopen
          have hreceive := receive_of_open hclosed hopen
            fun other hother ↦ hchunks other (hearlier.subset hother)
          have hdelivered := hright
            (earlier.map (fun other ↦ (other, [])) ++ [(chunk, deli.symbols)])
            (by simpa [Function.comp_def] using hearlier)
          rw [hreceive] at hdelivered
          have hlength := congrArg (Option.map List.length) hdelivered
          simp [Function.comp_def] at hlength
        · exact hclosed before hshorter
    exact hall earlier (List.prefix_refl _)
  · intro hclosed arrivals harrivals
    rw [receive_of_closed (fun earlier hearlier ↦ hclosed earlier (hearlier.trans harrivals))
      fun chunk hchunk ↦ hchunks chunk (harrivals.subset hchunk)]
    rfl

/-- A message that arrives in two chunks may be delivered wrong. -/
theorem not_right_hello :
    ¬ ∀ arrivals : List (Bytes × Bytes),
      arrivals.map Prod.fst <+: [ascii "hel", ascii "lo@#$"] →
      (receive [] arrivals).map Prod.fst = some (pieces (arrivals.map Prod.fst).flatten) := by
  intro hright
  have hclosed := (right_iff [ascii "hel", ascii "lo@#$"] (by decide)).mp hright [ascii "hel"]
    (by simp)
  have hnone : firstOccurrence deli.symbols (ascii "hel") = none := by decide
  rw [List.flatten_singleton, Closed, deli.cut_of_none hnone] at hclosed
  revert hclosed
  decide

/-- A buffer with a zero byte and no message in front of it only grows. -/
theorem receive_of_nul (hnul : 0 ∈ buf)
    (hnone : firstOccurrence deli.symbols (cString buf) = none) :
    receive buf arrivals = some ([], buf ++ (arrivals.map Prod.fst).flatten) := by
  induction arrivals generalizing buf with
  | nil => simp [receive]
  | cons arrival arrivals ih =>
    have hseen : cString (buf ++ arrival.1) = cString buf := cString_append_of_nul hnul _
    have hnow : onMessage arrival.2 (buf ++ arrival.1) = some ([], buf ++ arrival.1) := by
      apply onMessage_of_none
      rwa [cString_append_of_nul (List.mem_append_left _ hnul), hseen]
    rw [receive, hnow, Option.bind_some,
      ih (List.mem_append_left _ hnul) (by rwa [hseen]), Option.map_some]
    simp

/-- A zero byte ends the messages of the connection: those in front of it are delivered, and every
byte that arrives later stays in the buffer. -/
theorem stalled_by_nul (hnul : 0 ∈ buf ++ chunk) (hint : (cString (buf ++ chunk)).length < 2 ^ 31)
    (later : List (Bytes × Bytes)) :
    receive buf ((chunk, behind) :: later) = some (pieces (buf ++ chunk),
      remainder (buf ++ chunk) ++ (later.map Prod.fst).flatten) := by
  have hnone : firstOccurrence deli.symbols (cString (remainder (buf ++ chunk))) = none := by
    rw [cString_remainder]
    exact firstOccurrence_eq_none_iff.mpr (deli.not_infix_remainder _)
  rw [receive, onMessage_eq (.inl hnul) hint, Option.bind_some,
    receive_of_nul (nul_mem_remainder_iff.mpr hnul) hnone, Option.map_some, List.append_nil]

/-- A zero byte behind the first of two messages, and a third one in the next chunk. -/
theorem stalled_after_hello :
    receive [] [(ascii "hello@#$" ++ [0] ++ ascii "world@#$", []), (ascii "bye@#$", [])] =
      some (pieces (ascii "hello@#$" ++ [0] ++ ascii "world@#$"),
        remainder (ascii "hello@#$" ++ [0] ++ ascii "world@#$") ++ ascii "bye@#$") :=
  stalled_by_nul (by decide) (by decide) [(ascii "bye@#$", [])]

/-! ### Whole frames -/

theorem mem_pieces {stream message : Bytes} (hmem : message ∈ pieces stream) :
    message ≠ [] ∧ 0 ∉ message ∧ ¬ deli.symbols <:+: message := by
  obtain ⟨hcut, hnonempty⟩ := List.mem_filter.mp hmem
  refine ⟨by simpa using hnonempty, fun hnul ↦ nul_not_mem_cString stream ?_,
    deli.not_infix_of_mem_cut _ message hcut⟩
  rw [← deli.flatten_cut (cString stream)]
  refine List.mem_append_left _ (List.mem_flatten.mpr ⟨_, List.mem_map_of_mem hcut, ?_⟩)
  exact List.mem_append_left _ hnul

/-- The messages of a stream of frames. -/
theorem pieces_frames_eq_iff (messages : List Bytes) :
    pieces (deli.frames messages) = messages ↔
      ∀ message ∈ messages, message ≠ [] ∧ 0 ∉ message ∧ ¬ deli.symbols <:+: message := by
  constructor
  · intro hpieces message hmessage
    rw [← hpieces] at hmessage
    exact mem_pieces hmessage
  · intro hgood
    have hnul : 0 ∉ deli.frames messages := by
      simp only [Delimiter.frames, List.mem_flatten, List.mem_map, not_exists, not_and]
      rintro _ ⟨message, hmessage, rfl⟩ hmem
      rcases List.mem_append.mp hmem with hinner | hlast
      · exact (hgood message hmessage).2.1 hinner
      · exact nul_not_mem_deli hlast
    rw [pieces, cString_eq_of_nul hnul, (deli.cut_frames_eq_iff messages).mpr
      fun message hmessage ↦ (hgood message hmessage).2.2]
    exact List.filter_eq_self.mpr fun message hmessage ↦ by simpa using (hgood message hmessage).1

/-- A stream of frames is closed. -/
theorem closed_frames (messages : List Bytes) : Closed (deli.frames messages) := by
  right
  rw [deli.cut_frames]
  exact (by decide : 0 < deliLen)

theorem flatten_frames (groups : List (List Bytes)) :
    (groups.map fun messages ↦ (messages.map send).flatten).flatten =
      deli.frames groups.flatten := by
  induction groups with
  | nil => rfl
  | cons messages groups ih =>
    rw [List.map_cons, List.flatten_cons, ih, List.flatten_cons, Delimiter.frames,
      Delimiter.frames, List.map_append, List.flatten_append]
    rfl

/-- When every chunk holds whole frames, the messages that were sent are those delivered exactly
when each of them has a character, no zero byte and no separator. -/
theorem delivered_iff {groups : List (List Bytes)}
    (hframes : arrivals.map Prod.fst = groups.map fun messages ↦ (messages.map send).flatten)
    (hchunks : ∀ chunk ∈ arrivals.map Prod.fst, chunk.length + deliLen ≤ 2 ^ 31) :
    (receive [] arrivals).map Prod.fst = some groups.flatten ↔
      ∀ message ∈ groups.flatten,
        message ≠ [] ∧ 0 ∉ message ∧ ¬ deli.symbols <:+: message := by
  have hclosed : ∀ earlier, earlier <+: arrivals.map Prod.fst → Closed earlier.flatten := by
    intro earlier hearlier
    rw [hframes] at hearlier
    rw [List.prefix_iff_eq_take.mp hearlier, ← List.map_take, flatten_frames]
    exact closed_frames _
  rw [receive_of_closed hclosed hchunks, hframes, flatten_frames, Option.map_some,
    Option.some.injEq, pieces_frames_eq_iff]

/-- Two messages in one chunk and one in the next. -/
theorem delivered_greetings :
    (receive [] [(ascii "hello@#$world@#$", []), (ascii "bye@#$", ascii "@#$")]).map Prod.fst =
        some [ascii "hello", ascii "world", ascii "bye"] ↔
      ∀ message ∈ [ascii "hello", ascii "world", ascii "bye"],
        message ≠ [] ∧ 0 ∉ message ∧ ¬ deli.symbols <:+: message :=
  @delivered_iff [(ascii "hello@#$world@#$", []), (ascii "bye@#$", ascii "@#$")]
    [[ascii "hello", ascii "world"], [ascii "bye"]] (by decide) (by decide)

end Runs

end TradeServers.Separator
