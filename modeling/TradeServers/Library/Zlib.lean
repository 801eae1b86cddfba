import Mathlib.Data.Int.Notation
import Mathlib.Data.List.Basic
import Mathlib.Tactic.SplitIfs

/-!
# The compression library zlib

What the documentation of zlib says about `deflate` and about one call of `inflate` with `Z_FINISH`,
for streams in gzip format. Each call gets some input and some room, and reports a code. Allocations
succeed.

- `Zlib.gunzips_gzip_iff`: the stream of a text decompresses to that text only.
- `Zlib.not_gunzips_of_missing`: a stream that lacks its end decompresses to nothing.
-/

set_option autoImplicit false
set_option relaxedAutoImplicit false

namespace TradeServers

/-- `Z_OK`. -/
def zOk : ℤ := 0

/-- `Z_STREAM_END`. -/
def zStreamEnd : ℤ := 1

/-- `Z_BUF_ERROR`. -/
def zBufError : ℤ := -5

theorem zStreamEnd_ne_zBufError : zStreamEnd ≠ zBufError := by decide

/-- `Z_NO_FLUSH` and `Z_FINISH`. -/
inductive Flush
  | noFlush
  | finish

/-- What a call of `deflate` leaves: its code, the input that it did not read, what it wrote, and
the state of the stream. -/
structure DeflateCall (σ : Type) where
  code : ℤ
  rest : List UInt8
  written : List UInt8
  state : σ

/-- zlib. `Holds state read written` says that a stream has read and written these bytes so far, and
`gzip text` is the whole stream of a text. -/
structure Zlib where
  State : Type
  deflateInit : State
  deflate : State → List UInt8 → ℕ → Flush → DeflateCall State
  inflate : List UInt8 → ℕ → ℤ × List UInt8
  gzip : List UInt8 → List UInt8
  Holds : State → List UInt8 → List UInt8 → Prop
  holds_init : Holds deflateInit [] []
  /-- What was written is the beginning of every stream for what was read, and never all of it. -/
  holds_pending : ∀ {state read written}, Holds state read written →
    ∀ more, ∃ pending, pending ≠ [] ∧ gzip (read ++ more) = written ++ pending
  deflate_noRoom : ∀ state input flush, (deflate state input 0 flush).code = zBufError
  /-- Without a flush, `deflate` stops when the input is read or the room is used up. -/
  deflate_noFlush : ∀ {state read written input room}, Holds state read written → input ≠ [] →
    0 < room → (deflate state input room .noFlush).code = zOk ∧
      ∃ taken, input = taken ++ (deflate state input room .noFlush).rest ∧
        Holds (deflate state input room .noFlush).state (read ++ taken)
          (written ++ (deflate state input room .noFlush).written) ∧
        (deflate state input room .noFlush).written.length ≤ room ∧
        ((deflate state input room .noFlush).rest = [] ∨
          (deflate state input room .noFlush).written.length = room)
  /-- When all input is read, `Z_FINISH` ends the stream if there is room for the rest of it. -/
  deflate_finish : ∀ {state read written pending room}, Holds state read written →
    gzip read = written ++ pending → 0 < room → pending.length ≤ room →
      (deflate state [] room .finish).code = zStreamEnd ∧
        (deflate state [] room .finish).written = pending
  /-- Otherwise it uses the room up. -/
  deflate_finish_short : ∀ {state read written pending room}, Holds state read written →
    gzip read = written ++ pending → 0 < room → room < pending.length →
      (deflate state [] room .finish).code = zOk ∧
        (deflate state [] room .finish).written.length = room
  inflate_length : ∀ stream room, (inflate stream room).2.length ≤ room
  inflate_gzip : ∀ {text room}, text.length ≤ room → inflate (gzip text) room = (zStreamEnd, text)
  inflate_noRoom : ∀ {text room}, room < text.length → (inflate (gzip text) room).1 = zBufError
  inflate_incomplete : ∀ {text stream missing} room, gzip text = stream ++ missing →
    missing ≠ [] → (inflate stream room).1 = zBufError

namespace Zlib

section Streams

variable (zlib : Zlib)

/-- With enough room, `inflate` makes the text of the stream. -/
def Gunzips (stream text : List UInt8) : Prop :=
  ∃ room, zlib.inflate stream room = (zStreamEnd, text)

variable {zlib} {text other stream missing : List UInt8}

theorem gunzips_gzip_iff : zlib.Gunzips (zlib.gzip text) other ↔ other = text := by
  constructor
  · rintro ⟨room, hinflate⟩
    rcases Nat.lt_or_ge room text.length with hshort | hroom
    · have hcode := zlib.inflate_noRoom hshort
      rw [hinflate] at hcode
      exact absurd hcode zStreamEnd_ne_zBufError
    · exact (congrArg Prod.snd ((zlib.inflate_gzip hroom).symm.trans hinflate)).symm
  · rintro rfl
    exact ⟨other.length, zlib.inflate_gzip (Nat.le_refl _)⟩

theorem not_gunzips_of_missing (hstream : zlib.gzip text = stream ++ missing)
    (hmissing : missing ≠ []) : ¬ zlib.Gunzips stream other := by
  rintro ⟨room, hinflate⟩
  have hcode := zlib.inflate_incomplete room hstream hmissing
  rw [hinflate] at hcode
  exact absurd hcode zStreamEnd_ne_zBufError

theorem gzip_ne_nil (text : List UInt8) : zlib.gzip text ≠ [] := by
  obtain ⟨pending, hne, hgzip⟩ := zlib.holds_pending zlib.holds_init text
  rw [List.nil_append, List.nil_append] at hgzip
  exact hgzip ▸ hne

end Streams

/-! ### Verdicts -/

/-- What the documentation says about `inflate` for any input, corrupt ones included: it reports
`Z_BUF_ERROR` when the output is too small or the input ends before the stream does, and only then.
`need` is the room with which it comes to a verdict. -/
structure Verdicts (zlib : Zlib) where
  need : List UInt8 → Option ℕ
  bufError_iff : ∀ stream room,
    (zlib.inflate stream room).1 = zBufError ↔ ∀ needed ∈ need stream, room < needed

namespace Verdicts

variable {zlib : Zlib} (verdicts : zlib.Verdicts) {text stream missing : List UInt8} {room : ℕ}

/-- There is a verdict if and only if there is room for it. -/
theorem ne_bufError_iff :
    (zlib.inflate stream room).1 ≠ zBufError ↔ ∃ needed ∈ verdicts.need stream, needed ≤ room := by
  rw [Ne, verdicts.bufError_iff]
  simp only [not_forall, Nat.not_lt, exists_prop]

/-- A whole stream needs room for its text. -/
theorem need_gzip (text : List UInt8) : verdicts.need (zlib.gzip text) = some text.length := by
  have hverdict : (zlib.inflate (zlib.gzip text) text.length).1 ≠ zBufError := by
    rw [zlib.inflate_gzip (Nat.le_refl _)]
    exact zStreamEnd_ne_zBufError
  obtain ⟨needed, hneed, hle⟩ := verdicts.ne_bufError_iff.mp hverdict
  rcases Nat.lt_or_eq_of_le hle with hshort | heq
  · have hbuf := (verdicts.bufError_iff _ _).mp (zlib.inflate_noRoom hshort) needed hneed
    exact absurd hbuf (Nat.lt_irrefl needed)
  · exact heq ▸ hneed

/-- There is no verdict on a stream that lacks its end. -/
theorem need_of_missing (hstream : zlib.gzip text = stream ++ missing) (hmissing : missing ≠ []) :
    verdicts.need stream = none := by
  rw [Option.eq_none_iff_forall_not_mem]
  intro needed hneed
  have hbuf := (verdicts.bufError_iff _ _).mp (zlib.inflate_incomplete needed hstream hmissing)
  exact absurd (hbuf needed hneed) (Nat.lt_irrefl needed)

/-- Without a verdict there is no room that is enough. -/
theorem bufError_of_need_none (hneed : verdicts.need stream = none) (room : ℕ) :
    (zlib.inflate stream room).1 = zBufError := by
  rw [verdicts.bufError_iff, hneed]
  exact fun _ hnone ↦ absurd hnone (Option.not_mem_none _)

end Verdicts

/-! ### An instance -/

/-- What a gzip stream of zlib starts with. -/
def gzipHeader : List UInt8 := [31, 139, 8, 0, 0, 0, 0, 0, 0, 3]

/-- A text with a mark before every byte and another one behind the last. -/
def escape : List UInt8 → List UInt8
  | [] => [0]
  | byte :: text => 1 :: byte :: escape text

/-- The text that was escaped. -/
def unescape : List UInt8 → Option (List UInt8)
  | [0] => some []
  | 1 :: byte :: stream => (unescape stream).map (byte :: ·)
  | _ => none

theorem unescape_escape (text : List UInt8) : unescape (escape text) = some text := by
  induction text with
  | nil => rfl
  | cons byte text ih => rw [escape, unescape, ih, Option.map_some]

/-- What lacks the end of an escaped text is not one. -/
theorem unescape_of_missing : ∀ {text stream missing : List UInt8},
    escape text = stream ++ missing → missing ≠ [] → unescape stream = none := by
  intro text
  induction text with
  | nil =>
    rintro (_ | ⟨byte, stream⟩) missing hstream hmissing
    · rfl
    · obtain ⟨-, hrest⟩ := List.cons.inj hstream
      exact absurd (List.append_eq_nil_iff.mp hrest.symm).2 hmissing
  | cons byte text ih =>
    rintro (_ | ⟨first, _ | ⟨second, stream⟩⟩) missing hstream hmissing
    · rfl
    · obtain ⟨rfl, -⟩ := List.cons.inj hstream
      rfl
    · obtain ⟨rfl, hrest⟩ := List.cons.inj hstream
      obtain ⟨rfl, hescape⟩ := List.cons.inj hrest
      rw [unescape, ih hescape hmissing, Option.map_none]

/-- The stream of one text, which starts like no escaped text. -/
structure Sample where
  text : List UInt8
  first : UInt8
  payload : List UInt8
  first_ne_zero : first ≠ 0
  first_ne_one : first ≠ 1

namespace Sample

variable (sample : Sample)

/-- What follows the header in the stream of a text. -/
def encode (text : List UInt8) : List UInt8 :=
  if text = sample.text then sample.first :: sample.payload else escape text

/-- The text of what follows a header. -/
def decode (stream : List UInt8) : Option (List UInt8) :=
  if stream = sample.first :: sample.payload then some sample.text else unescape stream

theorem unescape_first (stream : List UInt8) : unescape (sample.first :: stream) = none := by
  unfold unescape
  split
  · rename_i heq
    exact absurd (List.cons.inj heq).1 sample.first_ne_zero
  · rename_i heq
    exact absurd (List.cons.inj heq).1 sample.first_ne_one
  · rfl

theorem encode_ne_nil (text : List UInt8) : sample.encode text ≠ [] := by
  unfold encode
  split_ifs
  · exact List.cons_ne_nil _ _
  · cases text <;> exact List.cons_ne_nil _ _

theorem decode_encode (text : List UInt8) : sample.decode (sample.encode text) = some text := by
  unfold encode
  split_ifs with htext
  · rw [decode, if_pos rfl, htext]
  · rw [decode, if_neg, unescape_escape]
    intro heq
    have hnone := sample.unescape_first sample.payload
    rw [← heq, unescape_escape] at hnone
    cases hnone

theorem decode_of_missing {text stream missing : List UInt8}
    (hstream : sample.encode text = stream ++ missing) (hmissing : missing ≠ []) :
    sample.decode stream = none := by
  have hshort : stream.length < (sample.encode text).length := by
    rw [hstream, List.length_append]
    exact Nat.lt_add_of_pos_right (List.length_pos_iff.mpr hmissing)
  unfold encode at hstream hshort
  split_ifs at hstream hshort with htext
  · rw [decode, if_neg fun heq ↦ absurd (congrArg List.length heq) (Nat.ne_of_lt hshort)]
    rcases stream with _ | ⟨byte, stream⟩
    · rfl
    · obtain ⟨rfl, -⟩ := List.cons.inj hstream
      exact sample.unescape_first stream
  · have hnone := unescape_of_missing hstream hmissing
    rw [decode, if_neg, hnone]
    rintro rfl
    cases text with
    | nil => exact sample.first_ne_zero (List.cons.inj hstream).1.symm
    | cons byte text => exact sample.first_ne_one (List.cons.inj hstream).1.symm

/-- The stream of a text. -/
def gzip (text : List UInt8) : List UInt8 := gzipHeader ++ sample.encode text

/-- A stream remembers what it has read and written. The header is written at once, and everything
else at the end. -/
def deflate (state : List UInt8 × List UInt8) (input : List UInt8) (room : ℕ) :
    Flush → DeflateCall (List UInt8 × List UInt8)
  | .noFlush =>
    if room = 0 then ⟨zBufError, input, [], state⟩
    else
      let pending := gzipHeader.drop state.2.length
      if pending.length ≤ room then ⟨zOk, [], pending, (state.1 ++ input, state.2 ++ pending)⟩
      else ⟨zOk, input, pending.take room, (state.1, state.2 ++ pending.take room)⟩
  | .finish =>
    if room = 0 then ⟨zBufError, input, [], state⟩
    else
      let pending := (sample.gzip (state.1 ++ input)).drop state.2.length
      if pending.length ≤ room then
        ⟨zStreamEnd, [], pending, (state.1 ++ input, state.2 ++ pending)⟩
      else ⟨zOk, [], pending.take room, (state.1 ++ input, state.2 ++ pending.take room)⟩

/-- The text of a whole stream, as far as there is room. -/
def inflate (stream : List UInt8) (room : ℕ) : ℤ × List UInt8 :=
  match if gzipHeader <+: stream then sample.decode (stream.drop gzipHeader.length) else none with
  | some text => if text.length ≤ room then (zStreamEnd, text) else (zBufError, text.take room)
  | none => (zBufError, [])

/-- The bytes that were read and written. -/
def Holds (state : List UInt8 × List UInt8) (read written : List UInt8) : Prop :=
  state = (read, written) ∧
    ∀ more, ∃ pending, pending ≠ [] ∧ sample.gzip (read ++ more) = written ++ pending

variable {sample} {read written : List UInt8}

/-- What is left of the header comes next. -/
theorem holds_header (hholds : sample.Holds (read, written) read written) (count : ℕ) :
    sample.Holds (read, written ++ (gzipHeader.drop written.length).take count) read
      (written ++ (gzipHeader.drop written.length).take count) := by
  refine ⟨rfl, fun more ↦ ?_⟩
  obtain ⟨pending, hne, hgzip⟩ := hholds.2 more
  have hpending : pending = gzipHeader.drop written.length ++
      (sample.encode (read ++ more)).drop (written.length - gzipHeader.length) := by
    rw [← List.drop_append, ← gzip, hgzip, List.drop_left]
  refine ⟨(gzipHeader.drop written.length).drop count ++
    (sample.encode (read ++ more)).drop (written.length - gzipHeader.length), ?_, ?_⟩
  · rcases Nat.lt_or_ge written.length gzipHeader.length with hlt | hge
    · rw [Nat.sub_eq_zero_of_le (Nat.le_of_lt hlt), List.drop_zero]
      exact List.append_ne_nil_of_right_ne_nil _ (sample.encode_ne_nil _)
    · rw [List.drop_eq_nil_of_le hge, List.nil_append] at hpending
      rw [← hpending]
      exact List.append_ne_nil_of_right_ne_nil _ hne
  · rw [hgzip, hpending, List.append_assoc, ← List.append_assoc (List.take _ _),
      List.take_append_drop]

theorem holds_more (hholds : sample.Holds (read, written) read written) (input : List UInt8) :
    sample.Holds (read ++ input, written) (read ++ input) written :=
  ⟨rfl, fun more ↦ List.append_assoc read input more ▸ hholds.2 (input ++ more)⟩

variable (sample)

theorem inflate_gzip_of_le {text : List UInt8} {room : ℕ} (hroom : text.length ≤ room) :
    sample.inflate (sample.gzip text) room = (zStreamEnd, text) := by
  unfold inflate gzip
  rw [if_pos (List.prefix_append _ _), List.drop_left, sample.decode_encode]
  exact if_pos hroom

/-- A zlib that makes the stream of the sample. -/
def zlib : Zlib where
  State := List UInt8 × List UInt8
  deflateInit := ([], [])
  deflate := sample.deflate
  inflate := sample.inflate
  gzip := sample.gzip
  Holds := sample.Holds
  holds_init := ⟨rfl, fun more ↦ ⟨sample.gzip more, by simp [gzip, gzipHeader], rfl⟩⟩
  holds_pending := fun hholds ↦ hholds.2
  deflate_noRoom := by
    rintro state input (_ | _) <;> rfl
  deflate_noFlush := by
    rintro _ read written input room ⟨rfl, hpending⟩ hinput hroom
    have hholds : sample.Holds (read, written) read written := ⟨rfl, hpending⟩
    unfold deflate
    rw [if_neg (Nat.ne_of_gt hroom)]
    dsimp only
    split_ifs with hfits
    · have hheader := holds_header hholds room
      rw [List.take_of_length_le hfits] at hheader
      exact ⟨rfl, input, (List.append_nil input).symm, holds_more hheader input, hfits, .inl rfl⟩
    · refine ⟨rfl, [], rfl, ?_, List.length_take_le _ _,
        .inr (List.length_take_of_le (Nat.le_of_not_le hfits))⟩
      rw [List.append_nil]
      exact holds_header hholds room
  deflate_finish := by
    rintro _ read written pending room ⟨rfl, -⟩ hgzip hroom hfits
    have hcall : sample.deflate (read, written) [] room .finish =
        ⟨zStreamEnd, [], pending, (read, written ++ pending)⟩ := by
      unfold deflate
      dsimp only
      rw [if_neg (Nat.ne_of_gt hroom), List.append_nil, hgzip, List.drop_left,
        if_pos hfits]
    rw [hcall]
    exact ⟨rfl, rfl⟩
  deflate_finish_short := by
    rintro _ read written pending room ⟨rfl, -⟩ hgzip hroom hshort
    have hcall : sample.deflate (read, written) [] room .finish =
        ⟨zOk, [], pending.take room, (read, written ++ pending.take room)⟩ := by
      unfold deflate
      dsimp only
      rw [if_neg (Nat.ne_of_gt hroom), List.append_nil, hgzip, List.drop_left,
        if_neg (Nat.not_le.mpr hshort)]
    rw [hcall]
    exact ⟨rfl, List.length_take_of_le (Nat.le_of_lt hshort)⟩
  inflate_length := by
    intro stream room
    unfold inflate
    split
    · split_ifs with hroom
      · exact hroom
      · exact List.length_take_le _ _
    · exact Nat.zero_le _
  inflate_gzip := sample.inflate_gzip_of_le
  inflate_noRoom := by
    intro text room hshort
    unfold inflate gzip
    rw [if_pos (List.prefix_append _ _), List.drop_left, sample.decode_encode]
    dsimp only
    rw [if_neg (Nat.not_le.mpr hshort)]
  inflate_incomplete := by
    intro text stream missing room hstream hmissing
    unfold inflate
    split_ifs with hheader
    · obtain ⟨rest, rfl⟩ := hheader
      rw [gzip, List.append_assoc] at hstream
      rw [List.drop_left, sample.decode_of_missing (List.append_cancel_left hstream) hmissing]
    · rfl

/-- It comes to a verdict on whole streams only. -/
def verdicts : sample.zlib.Verdicts where
  need := fun stream ↦
    (if gzipHeader <+: stream then sample.decode (stream.drop gzipHeader.length) else none).map
      List.length
  bufError_iff := by
    intro stream room
    change (sample.inflate stream room).1 = zBufError ↔ _
    unfold inflate
    split
    · rename_i text htext
      by_cases hroom : text.length ≤ room
      · simp [htext, hroom, zStreamEnd_ne_zBufError]
      · simp [htext, hroom, Nat.lt_of_not_le hroom]
    · rename_i hnone
      simp [hnone]

end Sample

end Zlib

end TradeServers
