import TradeServers.DeliTimeServer.Server
import Mathlib.Algebra.Order.Monoid.Unbundled.Pow
import Mathlib.Data.Nat.Find

/-!
# Texts through uploads and downloads

An upload gets its text through when the buffer in which the loop ends is longer than the text and
the text has no NUL byte (`mem_dealUpload_iff`). A download does when the text has no NUL byte, is
not the text of a failure, and its stream is at most twice as long (`mem_answerDownload_iff`).
-/

set_option autoImplicit false
set_option relaxedAutoImplicit false

namespace TradeServers.DeliTimeServer

open Loop PaddedField

variable {zlib : Zlib} {text : Bytes}

/-! ### Sizes -/

theorem doubled_eq_ok_iff {value next : ℤ} :
    doubled value = .ok next ↔ next = value * 2 ∧ -2 ^ 31 ≤ next ∧ next < 2 ^ 31 := by
  unfold doubled
  split_ifs with hfits
  · rw [Except.ok.injEq]
    constructor
    · rintro rfl
      exact ⟨rfl, hfits⟩
    · exact fun hnext ↦ hnext.1.symm
  · constructor
    · exact nofun
    · rintro ⟨rfl, hnext⟩
      exact absurd hnext hfits

/-- The double of a size that is an `int` as well. -/
theorem doubled_natCast {size : ℕ} (hfits : size * 2 < 2 ^ 31) :
    doubled (size : ℤ) = .ok ((size * 2 : ℕ) : ℤ) :=
  doubled_eq_ok_iff.mpr ⟨by push_cast; rfl, by omega, by omega⟩

/-- The first size of the loop is no larger than the others. -/
theorem first_size_lt {size round bound : ℕ} (hlast : size * 2 ^ round < bound) : size < bound :=
  (Nat.le_mul_of_pos_right size (Nat.two_pow_pos round)).trans_lt hlast

theorem toInt32_le_self (value : ℕ) : toInt32 value ≤ value := by
  unfold toInt32
  rw [Int.bmod_def]
  split_ifs <;> omega

/-- The loop ends in a buffer that is longer than the text: of the sizes that it tries, none is the
length of the text, and a larger one is an `int`. -/
def HasRoom (length compressed : ℕ) : Prop :=
  (∀ round, length ≠ compressed * 2 ^ (round + 1)) ∧
    ∃ round, length < compressed * 2 ^ (round + 1) ∧ compressed * 2 ^ (round + 1) < 2 ^ 31

/-- The first size that is not too small. -/
theorem hasRoom_iff {length compressed : ℕ} :
    HasRoom length compressed ↔ ∃ round, length < compressed * 2 * 2 ^ round ∧
      compressed * 2 * 2 ^ round < 2 ^ 31 ∧
        ∀ earlier < round, compressed * 2 * 2 ^ earlier < length := by
  have hsize : ∀ round, compressed * 2 ^ (round + 1) = compressed * 2 * 2 ^ round :=
    fun round ↦ by rw [pow_succ', mul_assoc]
  unfold HasRoom
  simp only [hsize]
  constructor
  · rintro ⟨hne, round, hroom, hint⟩
    have hexists : ∃ round, length < compressed * 2 * 2 ^ round := ⟨round, hroom⟩
    have hle : Nat.find hexists ≤ round := Nat.find_min' hexists hroom
    refine ⟨Nat.find hexists, Nat.find_spec hexists, ?_, fun earlier hearlier ↦ ?_⟩
    · exact (Nat.mul_le_mul_left _ (Nat.pow_le_pow_right (by decide) hle)).trans_lt hint
    · exact (Nat.not_lt.mp (Nat.find_min hexists hearlier)).lt_of_ne (hne earlier).symm
  · rintro ⟨round, hroom, hint, hearlier⟩
    refine ⟨fun other ↦ ?_, round, hroom, hint⟩
    rcases Nat.lt_or_ge other round with hlt | hge
    · exact (hearlier other hlt).ne'
    · exact (hroom.trans_le
        (Nat.mul_le_mul_left _ (Nat.pow_le_pow_right (by decide) hge))).ne

/-! ### Rounds of the loop of an upload -/

section Rounds

variable {body buffer : Bytes} {srcLen destLen next : ℤ}

/-- A verdict of zlib ends the loop. -/
theorem inflateRound_of_verdict (hdest : 0 ≤ destLen)
    (hcode : (gzDecompress zlib body srcLen destLen).1 ≠ zBufError) :
    inflateRound zlib body srcLen destLen =
      .inl (.ok (pad destLen.toNat 0 (gzDecompress zlib body srcLen destLen).2)) := by
  unfold inflateRound
  rw [if_neg hdest.not_gt]
  exact if_neg hcode

/-- With a buffer that is too small, or a part of the stream only, the size is doubled. -/
theorem inflateRound_of_bufError (hdest : 0 ≤ destLen)
    (hcode : (gzDecompress zlib body srcLen destLen).1 = zBufError) :
    inflateRound zlib body srcLen destLen =
      match doubled destLen with
      | .ok destLen => .inr destLen
      | .error fault => .inl (.error fault) := by
  unfold inflateRound
  rw [if_neg hdest.not_gt]
  dsimp only
  rw [hcode]
  rfl

/-- The next round of a size whose double is an `int`. -/
theorem inflateRound_of_fits {size : ℕ} (hfits : size * 2 < 2 ^ 31)
    (hcode : (gzDecompress zlib body srcLen size).1 = zBufError) :
    inflateRound zlib body srcLen size = .inr ((size * 2 : ℕ) : ℤ) := by
  rw [inflateRound_of_bufError (Int.natCast_nonneg size) hcode, doubled_natCast hfits]

/-- A round that goes on has doubled the size. -/
theorem doubled_of_inflateRound (hnext : inflateRound zlib body srcLen destLen = .inr next) :
    doubled destLen = .ok next := by
  rcases lt_or_ge destLen 0 with hneg | hdest
  · unfold inflateRound at hnext
    rw [if_pos hneg] at hnext
    cases hnext
  · by_cases hcode : (gzDecompress zlib body srcLen destLen).1 = zBufError
    · rw [inflateRound_of_bufError hdest hcode] at hnext
      cases hdouble : doubled destLen with
      | error fault =>
        rw [hdouble] at hnext
        cases hnext
      | ok size =>
        rw [hdouble] at hnext
        exact congrArg _ (Sum.inr.inj hnext)
    · rw [inflateRound_of_verdict hdest hcode] at hnext
      cases hnext

/-- A round that ends with a buffer has come to a verdict. -/
theorem verdict_of_inflateRound
    (hlast : inflateRound zlib body srcLen destLen = .inl (.ok buffer)) :
    (gzDecompress zlib body srcLen destLen).1 ≠ zBufError := by
  intro hcode
  rcases lt_or_ge destLen 0 with hneg | hdest
  · unfold inflateRound at hlast
    rw [if_pos hneg] at hlast
    cases hlast
  · rw [inflateRound_of_bufError hdest hcode] at hlast
    split at hlast <;> cases hlast

end Rounds

/-! ### The loop of an upload -/

/-- A buffer that is large enough holds the text. -/
theorem inflateRound_of_le {srcLen size : ℕ} (hsrc : srcLen = (zlib.gzip text).length)
    (hsize : text.length ≤ size) :
    inflateRound zlib (zlib.gzip text) srcLen size = .inl (.ok (pad size 0 text)) := by
  have hret : gzDecompress zlib (zlib.gzip text) srcLen size = (zStreamEnd, text) := by
    unfold gzDecompress
    rw [Int.toNat_natCast, Int.toNat_natCast, hsrc, List.take_length]
    exact zlib.inflate_gzip hsize
  have hcode : (gzDecompress zlib (zlib.gzip text) srcLen size).1 ≠ zBufError := by
    rw [hret]
    exact zStreamEnd_ne_zBufError
  rw [inflateRound_of_verdict (Int.natCast_nonneg size) hcode, hret, Int.toNat_natCast]

theorem bufError_of_lt {srcLen size : ℕ} (hsrc : srcLen = (zlib.gzip text).length)
    (hsize : size < text.length) :
    (gzDecompress zlib (zlib.gzip text) srcLen size).1 = zBufError := by
  unfold gzDecompress
  rw [Int.toNat_natCast, Int.toNat_natCast, hsrc, List.take_length]
  exact zlib.inflate_noRoom hsize

theorem bufError_of_part {srcLen : ℤ} (hsrc : srcLen.toNat < (zlib.gzip text).length)
    (destLen : ℤ) : (gzDecompress zlib (zlib.gzip text) srcLen destLen).1 = zBufError := by
  unfold gzDecompress
  refine zlib.inflate_incomplete _ (List.take_append_drop srcLen.toNat _).symm ?_
  rw [← List.length_pos_iff, List.length_drop]
  omega

/-- The loop ends in the first buffer that is large enough. -/
theorem mem_inflateLoop {srcLen : ℕ} (hsrc : srcLen = (zlib.gzip text).length) :
    ∀ {round size : ℕ}, text.length ≤ size * 2 ^ round → size * 2 ^ round < 2 ^ 31 →
      (∀ earlier < round, size * 2 ^ earlier < text.length) →
      .ok (pad (size * 2 ^ round) 0 text) ∈
        loop (inflateRound zlib (zlib.gzip text) srcLen) (size : ℤ) := by
  intro round
  induction round with
  | zero =>
    intro size hroom hint hearlier
    rw [pow_zero, mul_one] at hroom ⊢
    exact (mem_loop_of_end (inflateRound_of_le hsrc hroom)).mpr rfl
  | succ round ih =>
    intro size hroom hint hearlier
    have hshift : ∀ round, size * 2 ^ (round + 1) = size * 2 * 2 ^ round :=
      fun round ↦ by rw [pow_succ', mul_assoc]
    rw [hshift] at hroom hint
    have hsmall : size < text.length := by simpa using hearlier 0 (Nat.succ_pos round)
    have hstep : inflateRound zlib (zlib.gzip text) srcLen (size : ℤ) =
        .inr ((size * 2 : ℕ) : ℤ) :=
      inflateRound_of_fits (first_size_lt hint) (bufError_of_lt hsrc hsmall)
    rw [mem_loop_of_next hstep, hshift]
    refine ih hroom hint fun earlier hlt ↦ ?_
    rw [← hshift]
    exact hearlier (earlier + 1) (Nat.succ_lt_succ hlt)

/-- The loop that is given a part of the stream does not end with a buffer. -/
theorem not_mem_inflateLoop {srcLen start : ℤ} {buffer : Bytes}
    (hsrc : srcLen.toNat < (zlib.gzip text).length) :
    .ok buffer ∉ loop (inflateRound zlib (zlib.gzip text) srcLen) start := by
  intro hbuffer
  obtain ⟨last, -, hlast⟩ := exists_reached_of_mem_loop hbuffer
  exact verdict_of_inflateRound hlast (bufError_of_part hsrc last)

/-- The sizes of the loop: every size before this one was too small. -/
def Growing (size length : ℕ) (destLen : ℤ) : Prop :=
  ∃ round, destLen = ((size * 2 ^ round : ℕ) : ℤ) ∧ size * 2 ^ round < 2 ^ 31 ∧
    ∀ earlier < round, size * 2 ^ earlier < length

theorem growing_step {srcLen size : ℕ} {destLen next : ℤ}
    (hsrc : srcLen = (zlib.gzip text).length) (hgrowing : Growing size text.length destLen)
    (hnext : inflateRound zlib (zlib.gzip text) srcLen destLen = .inr next) :
    Growing size text.length next := by
  obtain ⟨round, rfl, hint, hearlier⟩ := hgrowing
  rcases Nat.lt_or_ge (size * 2 ^ round) text.length with hsmall | hroom
  · obtain ⟨rfl, -, hdouble⟩ := doubled_eq_ok_iff.mp (doubled_of_inflateRound hnext)
    have hshift : size * 2 ^ (round + 1) = size * 2 ^ round * 2 := by rw [pow_succ, mul_assoc]
    refine ⟨round + 1, by rw [hshift]; push_cast; rfl, by rw [hshift]; omega, ?_⟩
    intro earlier hlt
    rcases Nat.lt_succ_iff_lt_or_eq.mp hlt with hlt | rfl
    · exact hearlier earlier hlt
    · exact hsmall
  · rw [inflateRound_of_le hsrc hroom] at hnext
    cases hnext

/-- A loop that ends with a buffer has found one that is large enough. -/
theorem exists_of_mem_inflateLoop {srcLen size : ℕ} {buffer : Bytes}
    (hsrc : srcLen = (zlib.gzip text).length) (hsize : size < 2 ^ 31)
    (hbuffer : .ok buffer ∈ loop (inflateRound zlib (zlib.gzip text) srcLen) (size : ℤ)) :
    ∃ round, buffer = pad (size * 2 ^ round) 0 text ∧ text.length ≤ size * 2 ^ round ∧
      size * 2 ^ round < 2 ^ 31 ∧ ∀ earlier < round, size * 2 ^ earlier < text.length := by
  have hstart : Growing size text.length size :=
    ⟨0, by simp, by simpa using hsize, fun earlier hlt ↦ absurd hlt (Nat.not_lt_zero earlier)⟩
  obtain ⟨last, ⟨round, rfl, hint, hearlier⟩, hlast⟩ :=
    exists_end_of_mem_loop (Growing size text.length) hstart (growing_step hsrc) hbuffer
  rcases Nat.lt_or_ge (size * 2 ^ round) text.length with hsmall | hroom
  · exact absurd (bufError_of_lt hsrc hsmall) (verdict_of_inflateRound hlast)
  · rw [inflateRound_of_le hsrc hroom] at hlast
    exact ⟨round, (Except.ok.inj (Sum.inl.inj hlast)).symm, hroom, hint, hearlier⟩

/-- A text comes out of its buffer when it has no NUL byte and the buffer is longer. -/
theorem charString_pad_eq_ok_iff {size : ℕ} :
    charString (pad size 0 text) = .ok text ↔ 0 ∉ text ∧ text.length < size := by
  have hmem : 0 ∈ pad size 0 text ↔ 0 ∈ text ∨ text.length < size := by
    unfold pad
    rw [List.mem_append, List.mem_replicate, and_iff_left rfl, Nat.sub_ne_zero_iff_lt]
  unfold charString
  constructor
  · intro hstring
    split_ifs at hstring with hend
    have htext : 0 ∉ text := by
      rw [← Except.ok.inj hstring]
      exact nul_not_mem_cString _
    exact ⟨htext, (hmem.mp hend).resolve_left htext⟩
  · rintro ⟨htext, hlt⟩
    rw [if_pos (hmem.mpr (.inr hlt))]
    obtain ⟨room, hroom⟩ := Nat.exists_eq_add_of_lt hlt
    have hpadding : size - text.length = room + 1 := by omega
    have hcut : cString (pad size 0 text) = text := by
      unfold cString pad
      rw [List.takeWhile_append_of_pos, hpadding, List.replicate_succ,
        List.takeWhile_cons_of_neg (by simp), List.append_nil]
      intro byte hbyte
      simpa using ne_of_mem_of_not_mem hbyte htext
    rw [hcut]

/-- An upload that does something has ended its loop with a buffer. -/
theorem mem_dealUpload_iff_exists {connection : Option Connection} {packet : Packet} {srcLen : ℤ}
    {outcome : Outcome} :
    .ok outcome ∈ dealUpload zlib connection packet srcLen ↔ ∃ destLen buffer,
      doubled srcLen = .ok destLen ∧
        .ok buffer ∈ loop (inflateRound zlib packet.body srcLen) destLen ∧
          insertText connection packet.userName buffer = .ok outcome := by
  unfold dealUpload
  cases hdouble : doubled srcLen with
  | error fault =>
    constructor
    · exact fun houtcome ↦ absurd (Computation.eq_of_pure_mem houtcome) nofun
    · rintro ⟨destLen, buffer, hdestLen, -⟩
      cases hdestLen
  | ok destLen =>
    dsimp only
    rw [mem_bind_iff]
    constructor
    · rintro ⟨result, hresult, houtcome⟩
      cases result with
      | error fault => exact absurd (Computation.eq_of_pure_mem houtcome) nofun
      | ok buffer =>
        exact ⟨destLen, buffer, rfl, hresult, (Computation.eq_of_pure_mem houtcome).symm⟩
    · rintro ⟨_, buffer, hdestLen, hbuffer, houtcome⟩
      obtain rfl := Except.ok.inj hdestLen
      refine ⟨.ok buffer, hbuffer, ?_⟩
      dsimp only
      rw [houtcome]
      exact Computation.ret_mem _

theorem insertText_eq_ok_iff {connection : Option Connection} {userName buffer : Bytes} :
    insertText connection userName buffer = .ok (.mysqlInsert userName text) ↔
      connection.isSome = true ∧ charString buffer = .ok text := by
  unfold insertText
  cases hstring : charString buffer with
  | error fault => exact ⟨nofun, fun hboth ↦ absurd hboth.2 nofun⟩
  | ok unComBody =>
    cases connection with
    | none => exact ⟨nofun, fun hboth ↦ absurd hboth.1 nofun⟩
    | some connection =>
      constructor
      · intro hinsert
        obtain ⟨-, hcontent⟩ := Outcome.mysqlInsert.inj (Except.ok.inj hinsert)
        exact ⟨rfl, congrArg _ hcontent⟩
      · rintro ⟨-, hcontent⟩
        rw [← Except.ok.inj hcontent]
        rfl

/-- An upload hands over its text when there is a connection, the text has no NUL byte and the loop
finds a buffer that is longer than the text. -/
theorem mem_dealUpload_iff {connection : Option Connection} {packet : Packet}
    (hbody : packet.body = zlib.gzip text) :
    .ok (.mysqlInsert packet.userName text) ∈
        dealUpload zlib connection packet (toInt32 packet.body.length) ↔
      connection.isSome = true ∧ 0 ∉ text ∧ HasRoom text.length (zlib.gzip text).length := by
  rw [mem_dealUpload_iff_exists, hbody, hasRoom_iff]
  constructor
  · rintro ⟨destLen, buffer, hdouble, hbuffer, hinsert⟩
    have hsrc : toInt32 (zlib.gzip text).length = (zlib.gzip text).length := by
      have hwhole := mt not_mem_inflateLoop (not_not.mpr hbuffer)
      have hlt := toInt32_lt (zlib.gzip text).length
      exact toInt32_of_lt (by omega)
    rw [hsrc] at hbuffer hdouble
    obtain ⟨hdest, -, hint⟩ := doubled_eq_ok_iff.mp hdouble
    have hsize : destLen = (((zlib.gzip text).length * 2 : ℕ) : ℤ) := by
      rw [hdest]
      push_cast
      rfl
    rw [hsize] at hbuffer hint
    obtain ⟨round, rfl, hroom, hlast, hearlier⟩ :=
      exists_of_mem_inflateLoop rfl (by exact_mod_cast hint) hbuffer
    obtain ⟨hconnection, hstring⟩ := insertText_eq_ok_iff.mp hinsert
    obtain ⟨hnul, hlonger⟩ := charString_pad_eq_ok_iff.mp hstring
    exact ⟨hconnection, hnul, round, hlonger, hlast, hearlier⟩
  · rintro ⟨hconnection, hnul, round, hroom, hint, hearlier⟩
    have hfirst : (zlib.gzip text).length * 2 < 2 ^ 31 := first_size_lt hint
    have hsrc : toInt32 (zlib.gzip text).length = (zlib.gzip text).length :=
      toInt32_of_lt (by omega)
    rw [hsrc]
    exact ⟨_, _, doubled_natCast hfirst, mem_inflateLoop rfl hroom.le hint hearlier,
      insertText_eq_ok_iff.mpr ⟨hconnection, charString_pad_eq_ok_iff.mpr ⟨hnul, hroom⟩⟩⟩

/-! ### The answer to a download -/

/-- A download is answered with a stream of the text. -/
def SendsText (zlib : Zlib) (text : Bytes) (answer : Computation (Except Fault Outcome)) : Prop :=
  ∃ packet, .ok (.send packet) ∈ answer ∧ packet.format = ascii "GZIP" ∧
    zlib.Gunzips packet.body text

/-- Computations that end without an answer. -/
theorem not_sendsText_of_mem {answer : Computation (Except Fault Outcome)}
    {result : Except Fault Outcome} (hresult : result ∈ answer)
    (hother : ∀ packet, result = .ok (.send packet) →
      ¬ (packet.format = ascii "GZIP" ∧ zlib.Gunzips packet.body text)) :
    ¬ SendsText zlib text answer := by
  rintro ⟨packet, hpacket, hsent⟩
  exact hother packet (Computation.mem_unique hresult hpacket) hsent

theorem not_sendsText_fault (fault : Fault) :
    ¬ SendsText zlib text (return .error fault) :=
  not_sendsText_of_mem (Computation.ret_mem _) (fun _ hsend ↦ absurd hsend nofun)

theorem not_sendsText_nothing : ¬ SendsText zlib text (return .ok .nothing) :=
  not_sendsText_of_mem (Computation.ret_mem _) (fun _ hsend ↦ absurd hsend nofun)

/-- What is made of the result of `gzCompress`. -/
theorem mem_compressResult (userName : Bytes) {res : Bytes} {bodySize destLen : ℤ}
    {result : ℤ × Bytes} (hdouble : doubled bodySize = .ok destLen) (hdest : 0 ≤ destLen)
    (hresult : result ∈ gzCompress zlib res bodySize destLen) :
    .ok (if result.1 ≤ 0 then .nothing else .send ⟨ascii "RSDPJ", ascii "GZIP", userName,
        (pad destLen.toNat 0 result.2).take result.1.toNat⟩) ∈
      compressResult zlib userName res bodySize := by
  unfold compressResult
  rw [hdouble]
  dsimp only
  rw [if_neg hdest.not_gt]
  refine mem_bind_iff.mpr ⟨result, hresult, ?_⟩
  split_ifs <;> exact Computation.ret_mem _

/-- The text of `size` bytes that is handed to `gzCompress` is answered when its stream fits. -/
theorem sendsText_compressed_iff {userName res : Bytes} {size : ℕ} (hpos : 0 < size)
    (hsize : size ≤ res.length) (hint : size * 2 < 2 ^ 31) :
    SendsText zlib text (compressResult zlib userName res size) ↔
      text = res.take size ∧ (zlib.gzip text).length ≤ size * 2 := by
  have hdouble : doubled (size : ℤ) = .ok ((size * 2 : ℕ) : ℤ) := doubled_natCast hint
  obtain ⟨result, hresult, hspec⟩ :=
    exists_mem_gzCompress zlib hpos hsize (by omega) (by omega) hint
  have hanswer := mem_compressResult userName hdouble (Int.natCast_nonneg _) hresult
  rw [Int.toNat_natCast] at hanswer
  split_ifs at hspec with hfits
  · subst hspec
    have hpositive : 0 < (zlib.gzip (res.take size)).length :=
      List.length_pos_iff.mpr (zlib.gzip_ne_nil _)
    rw [if_neg (by omega), Int.toNat_natCast, take_length_pad] at hanswer
    constructor
    · rintro ⟨packet, hpacket, -, hgunzips⟩
      obtain rfl := Outcome.send.inj (Except.ok.inj (Computation.mem_unique hanswer hpacket))
      obtain rfl := Zlib.gunzips_gzip_iff.mp hgunzips
      exact ⟨rfl, hfits⟩
    · rintro ⟨rfl, -⟩
      exact ⟨_, hanswer, rfl, Zlib.gunzips_gzip_iff.mpr rfl⟩
  · have hnot : ¬ (text = res.take size ∧ (zlib.gzip text).length ≤ size * 2) := by
      rintro ⟨rfl, hle⟩
      exact hfits hle
    refine iff_of_false (not_sendsText_of_mem hanswer ?_) hnot
    rintro packet hpacket ⟨-, hgunzips⟩
    rcases hspec with hfailed | ⟨hpositive, hle, hlength, missing, hmissing, hgzip⟩
    · rw [if_pos (by omega)] at hpacket
      exact absurd hpacket nofun
    · rw [if_neg (by omega)] at hpacket
      obtain rfl := Outcome.send.inj (Except.ok.inj hpacket)
      rw [pad_of_length_eq hlength] at hgunzips
      have hstream : zlib.gzip (res.take size) =
          result.2.take result.1.toNat ++ (result.2.drop result.1.toNat ++ missing) := by
        rw [← List.append_assoc, List.take_append_drop, hgzip]
      exact Zlib.not_gunzips_of_missing hstream
        (List.append_ne_nil_of_right_ne_nil _ hmissing) hgunzips

/-- What is handed to `gzCompress` are the first `bodySize` bytes of a result. -/
theorem sendsText_compressResult_iff {userName res : Bytes} {bodySize : ℤ}
    (hle : bodySize ≤ res.length) :
    SendsText zlib text (compressResult zlib userName res bodySize) ↔
      0 < bodySize ∧ bodySize * 2 < 2 ^ 31 ∧ text = res.take bodySize.toNat ∧
        (zlib.gzip text).length ≤ bodySize.toNat * 2 := by
  cases hdouble : doubled bodySize with
  | error fault =>
    refine iff_of_false ?_ ?_
    · unfold compressResult
      rw [hdouble]
      exact not_sendsText_fault fault
    · rintro ⟨hpos, hint, -⟩
      have hok : doubled bodySize = .ok (bodySize * 2) :=
        doubled_eq_ok_iff.mpr ⟨rfl, by omega, hint⟩
      rw [hok] at hdouble
      cases hdouble
  | ok destLen =>
    obtain ⟨hdest, -, hint⟩ := doubled_eq_ok_iff.mp hdouble
    rcases lt_or_ge bodySize 0 with hneg | hnonneg
    · refine iff_of_false ?_ (fun hall ↦ absurd hall.1 hneg.not_gt)
      unfold compressResult
      rw [hdouble]
      dsimp only
      rw [if_pos (by omega)]
      exact not_sendsText_fault _
    · obtain ⟨size, rfl⟩ := Int.eq_ofNat_of_zero_le hnonneg
      rw [Int.toNat_natCast]
      rcases Nat.eq_zero_or_pos size with rfl | hpos
      · refine iff_of_false ?_ (fun hall ↦ absurd hall.1 (lt_irrefl 0))
        have hnothing : (-1, []) ∈ gzCompress zlib res ((0 : ℕ) : ℤ) destLen := by
          rw [gzCompress_of_nonpos zlib (show ((0 : ℕ) : ℤ) ≤ 0 from le_rfl)]
          exact Computation.ret_mem _
        have hanswer := mem_compressResult userName hdouble (by omega) hnothing
        exact not_sendsText_of_mem hanswer (fun _ hsend ↦ absurd hsend nofun)
      · rw [sendsText_compressed_iff hpos (by omega) (by omega)]
        exact ⟨fun hboth ↦ ⟨by omega, by omega, hboth⟩, fun hall ↦ hall.2.2⟩

/-- A result that is no longer than the text is answered with a stream of the text when it is the
text, twice its length is an `int`, and the stream fits into that. -/
theorem sendsText_whole_iff {userName res : Bytes} (htext : text ≠ [])
    (hres : res.length ≤ text.length) :
    SendsText zlib text (compressResult zlib userName res (toInt32 res.length)) ↔
      res = text ∧ text.length < 2 ^ 30 ∧ (zlib.gzip text).length ≤ text.length * 2 := by
  have hpos : 0 < text.length := List.length_pos_iff.mpr htext
  have hle := toInt32_le_self res.length
  rw [sendsText_compressResult_iff hle]
  constructor
  · rintro ⟨-, hint, htake, hfits⟩
    have hlength := congrArg List.length htake
    rw [List.length_take] at hlength
    have hwhole : res = text := by
      rw [htake, List.take_of_length_le (by omega)]
    subst hwhole
    exact ⟨rfl, by omega, by omega⟩
  · rintro ⟨rfl, hint, hfits⟩
    rw [toInt32_of_lt (by omega), Int.toNat_natCast, List.take_length]
    exact ⟨by omega, by omega, rfl, hfits⟩

theorem cString_eq_self_iff : cString text = text ↔ 0 ∉ text :=
  ⟨fun heq ↦ heq ▸ nul_not_mem_cString text, cString_eq_of_nul⟩

/-- The answer to a query that has found the text. -/
theorem sendsText_answerDownload_iff {userName : Bytes} (htext : text ≠ []) :
    SendsText zlib text (answerDownload zlib userName (cString text)) ↔
      0 ∉ text ∧ text ≠ ascii "FAIL" ∧ text.length < 2 ^ 30 ∧
        (zlib.gzip text).length ≤ text.length * 2 := by
  have hres : (cString text).length ≤ text.length := (List.takeWhile_prefix _).length_le
  unfold answerDownload
  by_cases hempty : cString text = []
  · rw [if_pos hempty]
    refine iff_of_false not_sendsText_nothing fun hall ↦ htext ?_
    rw [← cString_eq_of_nul hall.1, hempty]
  · rw [if_neg hempty]
    by_cases hfail : cString text = ascii "FAIL"
    · rw [if_pos hfail]
      refine iff_of_false (not_sendsText_of_mem (Computation.ret_mem _) ?_) fun hall ↦ hall.2.1 ?_
      · rintro packet hpacket ⟨hformat, -⟩
        obtain rfl := Outcome.send.inj (Except.ok.inj hpacket)
        exact absurd hformat (by decide : ascii "TXT" ≠ ascii "GZIP")
      · rw [← hfail, cString_eq_of_nul hall.1]
    · rw [if_neg hfail, sendsText_whole_iff htext hres, cString_eq_self_iff]
      refine and_congr_right fun hnul ↦ (and_iff_right ?_).symm
      rwa [cString_eq_of_nul hnul] at hfail

/-- A download whose query returns the text. -/
theorem sendsText_dealDownload_iff {connection : Connection} {packet : Packet} (htext : text ≠ [])
    (hquery : connection (queryText packet.userName) = .row (some text)) :
    SendsText zlib text (dealDownload zlib (some connection) packet) ↔
      (cString packet.userName).length ≤ 12 ∧ 0 ∉ text ∧ text ≠ ascii "FAIL" ∧
        text.length < 2 ^ 30 ∧ (zlib.gzip text).length ≤ text.length * 2 := by
  have hlength : (queryText packet.userName).length = (cString packet.userName).length + 51 := by
    unfold queryText
    simp only [List.length_append]
    rw [show (ascii "SELECT content FROM ").length = 20 from rfl,
      show (ascii " ").length = 1 from rfl, show tableName.length = 10 from rfl,
      show (ascii " where UserName = \"").length = 19 from rfl,
      show (ascii "\"").length = 1 from rfl]
    omega
  unfold dealDownload mysqlQuery
  dsimp only
  rw [hlength, hquery]
  by_cases hname : (cString packet.userName).length ≤ 12
  · rw [if_neg (by omega), and_iff_right hname]
    exact sendsText_answerDownload_iff htext
  · rw [if_pos (by omega)]
    exact iff_of_false (not_sendsText_fault _) (fun hall ↦ hname hall.1)

/-- An upload whose body is the stream of a text hands over exactly that text when the pool has a
connection, the text has no NUL byte, and the loop finds a buffer that is longer than the text. A
download whose query returns the text answers with a stream of it when the query text fits its
buffer, the text has no NUL byte and is not the text of a failure, and twice its length is an `int`
and room enough for the stream. Otherwise neither does. -/
theorem uploads_and_downloads (zlib : Zlib) (pool : Option Connection) (connection : Connection)
    {text upload download : Bytes} (htext : text ≠ []) (hupload : headerLen ≤ upload.length)
    (hcmd : (parsePacket upload).cmd = ascii "RQUPJ")
    (hformat : (parsePacket upload).format = ascii "GZIP")
    (hbody : (parsePacket upload).body = zlib.gzip text) (hdownload : headerLen ≤ download.length)
    (hother : (parsePacket download).cmd = ascii "RQDPJ")
    (hquery : connection (queryText (parsePacket download).userName) = .row (some text)) :
    (.ok (.mysqlInsert (parsePacket upload).userName text) ∈ dealMessage zlib pool upload ↔
      pool.isSome = true ∧ 0 ∉ text ∧ HasRoom text.length (zlib.gzip text).length) ∧
    (SendsText zlib text (dealMessage zlib (some connection) download) ↔
      (cString (parsePacket download).userName).length ≤ 12 ∧ 0 ∉ text ∧ text ≠ ascii "FAIL" ∧
        text.length < 2 ^ 30 ∧ (zlib.gzip text).length ≤ text.length * 2) := by
  constructor
  · unfold dealMessage
    rw [if_neg hupload.not_gt]
    dsimp only
    rw [if_pos ⟨hcmd, hformat⟩]
    exact mem_dealUpload_iff hbody
  · unfold dealMessage
    rw [if_neg hdownload.not_gt]
    dsimp only
    rw [if_neg (fun hboth ↦ absurd (hother.symm.trans hboth.1) (by decide)), if_pos hother]
    exact sendsText_dealDownload_iff htext hquery

/-! ### Two texts -/

/-- A message with the layout of `Header`. -/
def message (cmd format userName body : Bytes) : Bytes :=
  pad 8 0 cmd ++ pad 4 0 format ++ pad 32 0 userName ++ body

/-- The stream of a list with one string. -/
def listSample : Zlib.Sample where
  text := ascii "[\"aaaaaaaaaaaa\"]"
  first := 139
  payload := [86, 74, 68, 2, 74, 177, 0, 95, 230, 192, 229, 16, 0, 0, 0]
  first_ne_zero := by decide
  first_ne_one := by decide

theorem list_uploads_and_downloads :
    (.ok (.mysqlInsert (ascii "user") listSample.text) ∈
        dealMessage listSample.zlib (some fun _ ↦ .row (some listSample.text))
          (message (ascii "RQUPJ") (ascii "GZIP") (ascii "user")
            (listSample.zlib.gzip listSample.text)) ↔
      (true = true) ∧ 0 ∉ listSample.text ∧ HasRoom 16 26) ∧
    (SendsText listSample.zlib listSample.text
        (dealMessage listSample.zlib (some fun _ ↦ .row (some listSample.text))
          (message (ascii "RQDPJ") (ascii "GZIP") (ascii "user") [])) ↔
      4 ≤ 12 ∧ 0 ∉ listSample.text ∧ listSample.text ≠ ascii "FAIL" ∧ 16 < 2 ^ 30 ∧
        26 ≤ 16 * 2) :=
  uploads_and_downloads listSample.zlib (some fun _ ↦ .row (some listSample.text))
    (fun _ ↦ .row (some listSample.text)) (by decide) (by decide) (by decide) (by decide)
    (by decide) (by decide) (by decide) rfl

/-- The stream of a text with a NUL byte. -/
def nulSample : Zlib.Sample where
  text := [97, 0, 98]
  first := 75
  payload := [100, 72, 2, 0, 113, 120, 232, 21, 3, 0, 0, 0]
  first_ne_zero := by decide
  first_ne_one := by decide

/-- Its upload. -/
def nulUpload : Bytes :=
  message (ascii "RQUPJ") (ascii "GZIP") (ascii "user") (nulSample.zlib.gzip [97, 0, 98])

/-- A text with a NUL byte is cut there, and a short one is answered with the first bytes of a
header. -/
theorem nul_cut_and_short_broken :
    (.ok (.mysqlInsert (ascii "user") [97]) ∈
        dealMessage nulSample.zlib (some fun _ ↦ .noRow) nulUpload ∧
      .ok (.mysqlInsert (ascii "user") [97, 0, 98]) ∉
        dealMessage nulSample.zlib (some fun _ ↦ .noRow) nulUpload) ∧
      .ok (.send ⟨ascii "RSDPJ", ascii "GZIP", ascii "user", [31, 139]⟩) ∈
        dealMessage nulSample.zlib (some fun _ ↦ .row (some (ascii "hi")))
          (message (ascii "RQDPJ") (ascii "GZIP") (ascii "user") []) ∧
      ¬ nulSample.zlib.Gunzips [31, 139] (ascii "hi") := by
  have hcut : .ok (.mysqlInsert (ascii "user") [97]) ∈
      dealMessage nulSample.zlib (some fun _ ↦ .noRow) nulUpload := ⟨4, by decide +kernel⟩
  refine ⟨⟨hcut, fun hwhole ↦ ?_⟩, ⟨4, by decide +kernel⟩, ?_⟩
  · exact absurd (Computation.mem_unique hcut hwhole) (by decide)
  · have hstream : nulSample.zlib.gzip (ascii "hi") =
        [31, 139] ++ (nulSample.zlib.gzip (ascii "hi")).drop 2 := by decide
    exact Zlib.not_gunzips_of_missing hstream (by decide)

end TradeServers.DeliTimeServer
