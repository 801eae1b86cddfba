import TradeServers.Bytes
import TradeServers.Library.Loop
import TradeServers.Library.Zlib

/-!
# The compression helpers of the time server

`gzCompress` and `gzDecompress` of the time server, over zlib. `gzCompress` reports the size of the
stream, what is left of the input, or `-1`, all as one `int`.

`exists_mem_gzCompress` says what it leaves in its destination.
-/

set_option autoImplicit false
set_option relaxedAutoImplicit false

namespace TradeServers.DeliTimeServer

open Loop

variable (zlib : Zlib)

/-! ### Compressing -/

/-- The `z_stream` of `gzCompress`: `next_in` with `avail_in`, and `dest` with `total_out`. -/
structure DeflateStream where
  state : zlib.State
  nextIn : Bytes
  dest : Bytes

variable {zlib}

/-- A call of `deflate`, with its code. -/
def DeflateStream.deflate (stream : DeflateStream zlib) (destLen : ℕ) (flush : Flush) :
    ℤ × DeflateStream zlib :=
  let call := zlib.deflate stream.state stream.nextIn (destLen - stream.dest.length) flush
  (call.code, ⟨call.state, call.rest, stream.dest ++ call.written⟩)

/-- The loop that hands the input to `deflate`; `none` stands for its `return -1`. -/
def deflateInput (destLen : ℕ) (stream : DeflateStream zlib) :
    Option (DeflateStream zlib) ⊕ DeflateStream zlib :=
  if stream.nextIn ≠ [] ∧ stream.dest.length < destLen then
    let call := stream.deflate destLen .noFlush
    if call.1 ≠ zOk then .inl none else .inr call.2
  else .inl (some stream)

/-- The loop that finishes the stream. -/
def deflateFinish (destLen : ℕ) (stream : DeflateStream zlib) :
    Option (DeflateStream zlib) ⊕ DeflateStream zlib :=
  let call := stream.deflate destLen .finish
  if call.1 = zStreamEnd then .inl (some call.2)
  else if call.1 ≠ zOk then .inl none
  else .inr call.2

variable (zlib)

/-- `gzCompress`: its result, and what it has written to `dest` unless that is `-1`. -/
def gzCompress (src : Bytes) (srcLen destLen : ℤ) : Computation (ℤ × Bytes) :=
  if 0 < srcLen then do
    match ← loop (deflateInput destLen.toNat) ⟨zlib.deflateInit, src.take srcLen.toNat, []⟩ with
    | none => return (-1, [])
    | some stream =>
      -- the output ran out before the input did
      if stream.nextIn ≠ [] then return (toInt32 stream.nextIn.length, stream.dest)
      else
        match ← loop (deflateFinish destLen.toNat) stream with
        | none => return (-1, [])
        | some stream => return (toInt32 stream.dest.length, stream.dest)
  else return (-1, [])

/-- `gzDecompress`: its code, and what it has written to `dst`. -/
def gzDecompress (src : Bytes) (srcLen dstLen : ℤ) : ℤ × Bytes :=
  zlib.inflate (src.take srcLen.toNat) dstLen.toNat

/-! ### What compressing leaves -/

variable {zlib} {destLen : ℕ} {stream : DeflateStream zlib} {text : Bytes}

theorem zOk_ne_zStreamEnd : zOk ≠ zStreamEnd := by decide

theorem deflateFinish_of_streamEnd (hcode : (stream.deflate destLen .finish).1 = zStreamEnd) :
    deflateFinish destLen stream = .inl (some (stream.deflate destLen .finish).2) := by
  unfold deflateFinish
  exact if_pos hcode

theorem deflateFinish_of_ok (hcode : (stream.deflate destLen .finish).1 = zOk) :
    deflateFinish destLen stream = .inr (stream.deflate destLen .finish).2 := by
  unfold deflateFinish
  dsimp only
  rw [hcode, if_neg zOk_ne_zStreamEnd, if_neg (not_not.mpr rfl)]

/-- Without room the stream is given up. -/
theorem deflateFinish_noRoom (hfull : stream.dest.length = destLen) :
    deflateFinish destLen stream = .inl none := by
  have hcode : (stream.deflate destLen .finish).1 = zBufError := by
    unfold DeflateStream.deflate
    rw [hfull, Nat.sub_self]
    exact zlib.deflate_noRoom _ _ _
  unfold deflateFinish
  dsimp only
  rw [hcode]
  rfl

/-- When all input is read, the stream is ended if there is room for the rest of it. -/
theorem mem_deflateFinish (hholds : zlib.Holds stream.state text stream.dest)
    (hread : stream.nextIn = []) (hroom : stream.dest.length ≤ destLen) :
    ∃ result ∈ loop (deflateFinish destLen) stream,
      if (zlib.gzip text).length ≤ destLen then
        ∃ last, result = some last ∧ last.dest = zlib.gzip text
      else result = none := by
  obtain ⟨pending, hne, hgzip⟩ := zlib.holds_pending hholds []
  rw [List.append_nil] at hgzip
  have hpos : 0 < pending.length := List.length_pos_iff.mpr hne
  have hlength : (zlib.gzip text).length = stream.dest.length + pending.length := by
    rw [hgzip, List.length_append]
  rcases hroom.eq_or_lt with hfull | hlt
  · refine ⟨none, (mem_loop_of_end (deflateFinish_noRoom hfull)).mpr rfl, ?_⟩
    rw [if_neg (by omega)]
  · have hleft : 0 < destLen - stream.dest.length := Nat.sub_pos_of_lt hlt
    rcases Nat.lt_or_ge (destLen - stream.dest.length) pending.length with hshort | hfits
    · obtain ⟨hcode, hwritten⟩ := zlib.deflate_finish_short hholds hgzip hleft hshort
      rw [← hread] at hcode hwritten
      have hfull : (stream.deflate destLen .finish).2.dest.length = destLen := by
        unfold DeflateStream.deflate
        rw [List.length_append, hwritten]
        omega
      refine ⟨none, (mem_loop_of_next (deflateFinish_of_ok hcode)).mpr
        ((mem_loop_of_end (deflateFinish_noRoom hfull)).mpr rfl), ?_⟩
      rw [if_neg (by omega)]
    · obtain ⟨hcode, hwritten⟩ := zlib.deflate_finish hholds hgzip hleft hfits
      rw [← hread] at hcode hwritten
      refine ⟨_, (mem_loop_of_end (deflateFinish_of_streamEnd hcode)).mpr rfl, ?_⟩
      rw [if_pos (by omega)]
      refine ⟨_, rfl, ?_⟩
      rw [hgzip, ← hwritten]
      rfl

variable (zlib) in
/-- Handing over the input takes one call, which leaves some of the input only when it has used up
the room. -/
theorem mem_deflateInput (htext : text ≠ []) (hdest : 0 < destLen) :
    ∃ stream, some stream ∈ loop (deflateInput destLen) ⟨zlib.deflateInit, text, []⟩ ∧
      ∃ taken, text = taken ++ stream.nextIn ∧ zlib.Holds stream.state taken stream.dest ∧
        stream.dest.length ≤ destLen ∧ (stream.nextIn = [] ∨ stream.dest.length = destLen) := by
  obtain ⟨hcode, taken, htaken, hholds, hfits, hstop⟩ :=
    zlib.deflate_noFlush zlib.holds_init htext hdest
  rw [List.nil_append, List.nil_append] at hholds
  let start : DeflateStream zlib := ⟨zlib.deflateInit, text, []⟩
  have hnext : (start.deflate destLen .noFlush).2 =
      ⟨(zlib.deflate zlib.deflateInit text destLen .noFlush).state,
        (zlib.deflate zlib.deflateInit text destLen .noFlush).rest,
        (zlib.deflate zlib.deflateInit text destLen .noFlush).written⟩ := rfl
  have hfirst : deflateInput destLen start = .inr (start.deflate destLen .noFlush).2 := by
    have hok : (start.deflate destLen .noFlush).1 = zOk := hcode
    unfold deflateInput
    rw [if_pos ⟨htext, hdest⟩, if_neg (not_not.mpr hok)]
  have hlast : deflateInput destLen (start.deflate destLen .noFlush).2 =
      .inl (some (start.deflate destLen .noFlush).2) := by
    unfold deflateInput
    rw [if_neg]
    rintro ⟨hrest, hroom⟩
    rw [hnext] at hrest hroom
    exact hstop.elim hrest hroom.ne
  refine ⟨_, (mem_loop_of_next hfirst).mpr ((mem_loop_of_end hlast).mpr rfl), ?_⟩
  rw [hnext]
  exact ⟨taken, htaken, hholds, hfits, hstop⟩

variable (zlib) in
/-- Nothing is not compressed. -/
theorem gzCompress_of_nonpos {src : Bytes} {srcLen destLen : ℤ} (hsrc : srcLen ≤ 0) :
    gzCompress zlib src srcLen destLen = return (-1, []) := by
  unfold gzCompress
  exact if_neg hsrc.not_gt

variable (zlib) in
/-- The whole stream is left when it fits. Otherwise the result is `-1`, or else the length of the
unread input beside a stream that lacks its end. -/
theorem exists_mem_gzCompress {src : Bytes} {srcLen destLen : ℕ} (hsrc : 0 < srcLen)
    (hlen : srcLen ≤ src.length) (hint : srcLen < 2 ^ 31) (hdest : 0 < destLen)
    (hdestInt : destLen < 2 ^ 31) :
    ∃ result ∈ gzCompress zlib src srcLen destLen,
      if (zlib.gzip (src.take srcLen)).length ≤ destLen then
        result = (((zlib.gzip (src.take srcLen)).length : ℤ), zlib.gzip (src.take srcLen))
      else result.1 = -1 ∨ 0 < result.1 ∧ result.1 ≤ srcLen ∧ result.2.length = destLen ∧
        ∃ missing, missing ≠ [] ∧ zlib.gzip (src.take srcLen) = result.2 ++ missing := by
  have htext : src.take srcLen ≠ [] := by
    rw [← List.length_pos_iff, List.length_take_of_le hlen]
    exact hsrc
  obtain ⟨stream, hstream, taken, htaken, hholds, hroom, hstop⟩ :=
    mem_deflateInput zlib htext hdest
  unfold gzCompress
  rw [if_pos (Int.natCast_pos.mpr hsrc), Int.toNat_natCast, Int.toNat_natCast]
  by_cases hread : stream.nextIn = []
  · rw [hread, List.append_nil] at htaken
    rw [← htaken] at hholds
    obtain ⟨result, hresult, hspec⟩ := mem_deflateFinish hholds hread hroom
    split_ifs at hspec ⊢ with hfits
    · obtain ⟨last, rfl, hlast⟩ := hspec
      refine ⟨(((zlib.gzip (src.take srcLen)).length : ℤ), zlib.gzip (src.take srcLen)),
        mem_bind_iff.mpr ⟨some stream, hstream, ?_⟩, rfl⟩
      dsimp only
      rw [if_neg (not_not.mpr hread)]
      refine mem_bind_iff.mpr ⟨some last, hresult, ?_⟩
      dsimp only
      rw [hlast, toInt32_of_lt (hfits.trans_lt hdestInt)]
      exact Computation.ret_mem _
    · subst hspec
      refine ⟨(-1, []), mem_bind_iff.mpr ⟨some stream, hstream, ?_⟩, .inl rfl⟩
      dsimp only
      rw [if_neg (not_not.mpr hread)]
      exact mem_bind_iff.mpr ⟨none, hresult, Computation.ret_mem _⟩
  · have hfull := hstop.resolve_left hread
    obtain ⟨missing, hmissing, hgzip⟩ := zlib.holds_pending hholds stream.nextIn
    rw [← htaken] at hgzip
    have hpos : 0 < missing.length := List.length_pos_iff.mpr hmissing
    have hleft : 0 < stream.nextIn.length := List.length_pos_iff.mpr hread
    have htaken := congrArg List.length htaken
    rw [List.length_append, List.length_take_of_le hlen] at htaken
    refine ⟨(toInt32 stream.nextIn.length, stream.dest),
      mem_bind_iff.mpr ⟨some stream, hstream, ?_⟩, ?_⟩
    · dsimp only
      rw [if_pos hread]
      exact Computation.ret_mem _
    · rw [if_neg, toInt32_of_lt (by omega)]
      · exact .inr ⟨by omega, by omega, hfull, missing, hmissing, hgzip⟩
      · rw [hgzip, List.length_append]
        omega

end TradeServers.DeliTimeServer
