import TradeServers.DeliTimeServer.RoundTrip

/-!
# The retry loop of an upload

The loop of `dealMessage` doubles its buffer as long as `gzDecompress` returns `Z_BUF_ERROR`, which
also is what zlib returns for a stream that lacks its end. `retry_ends_iff` says for which bodies
the loop ends with a buffer and with all of its sizes positive values of `int`: the body is not
empty, zlib comes to a verdict on it, and one of the sizes has the room for that and is an `int`.
An empty body is tried for ever with no room (`not_mem_retry_of_empty`), and without a verdict the
size overflows (`mem_retry_of_need_none`).
-/

set_option autoImplicit false
set_option relaxedAutoImplicit false

namespace TradeServers.DeliTimeServer

open Loop PaddedField

variable {zlib : Zlib} {body : Bytes} {srcLen : ℤ}

/-- The loop for a body of which `srcLen` bytes are read ends with a buffer, and every size that it
comes to is a positive `int`. -/
def RetryEnds (zlib : Zlib) (body : Bytes) (srcLen : ℤ) : Prop :=
  ∃ destLen, doubled srcLen = .ok destLen ∧
    (∃ buffer, .ok buffer ∈ loop (inflateRound zlib body srcLen) destLen) ∧
      ∀ size, Reached (inflateRound zlib body srcLen) destLen size → 0 < size ∧ size < 2 ^ 31

/-! ### Sizes -/

/-- Every size is the first one, doubled some number of times. -/
theorem exists_size_of_reached {start size : ℤ}
    (hreached : Reached (inflateRound zlib body srcLen) start size) :
    ∃ round : ℕ, size = start * 2 ^ round := by
  refine hreached.invariant (fun size ↦ ∃ round : ℕ, size = start * 2 ^ round)
    ⟨0, by rw [pow_zero, mul_one]⟩ ?_
  rintro state next ⟨round, rfl⟩ hnext
  obtain ⟨hsize, -⟩ := doubled_eq_ok_iff.mp (doubled_of_inflateRound hnext)
  exact ⟨round + 1, by rw [hsize, pow_succ, mul_assoc]⟩

/-- Sizes that start as a positive `int` stay one. -/
theorem positive_of_reached {start size : ℤ} (hpos : 0 < start) (hint : start < 2 ^ 31)
    (hreached : Reached (inflateRound zlib body srcLen) start size) :
    0 < size ∧ size < 2 ^ 31 := by
  refine hreached.invariant (fun size ↦ 0 < size ∧ size < 2 ^ 31) ⟨hpos, hint⟩ ?_
  rintro state next ⟨hstate, -⟩ hnext
  obtain ⟨rfl, -, hlt⟩ := doubled_eq_ok_iff.mp (doubled_of_inflateRound hnext)
  exact ⟨by omega, hlt⟩

/-- An empty body is tried again and again without any room. -/
theorem not_mem_retry_of_empty (zlib : Zlib) (result : Except Fault Bytes) :
    result ∉ loop (inflateRound zlib [] 0) 0 := by
  have hcode : (gzDecompress zlib [] 0 ((0 : ℕ) : ℤ)).1 = zBufError :=
    zlib.inflate_incomplete 0 (List.nil_append (zlib.gzip [])).symm (zlib.gzip_ne_nil [])
  have hround : inflateRound zlib [] 0 ((0 : ℕ) : ℤ) = .inr ((0 * 2 : ℕ) : ℤ) :=
    inflateRound_of_fits (by omega) hcode
  exact not_mem_loop_of_fixed hround

/-! ### Verdicts -/

section Verdicts

variable (verdicts : zlib.Verdicts)

/-- Without a verdict the size is doubled until it overflows. -/
theorem mem_retry_of_need_none (hneed : verdicts.need (body.take srcLen.toNat) = none) :
    ∀ {rounds size : ℕ}, 2 ^ 31 ≤ size * 2 ^ rounds →
      .error .intOverflow ∈ loop (inflateRound zlib body srcLen) (size : ℤ) := by
  have hcode : ∀ size : ℕ, (gzDecompress zlib body srcLen size).1 = zBufError :=
    fun size ↦ verdicts.bufError_of_need_none hneed size
  have hoverflow : ∀ {size : ℕ}, 2 ^ 31 ≤ size * 2 →
      inflateRound zlib body srcLen size = .inl (.error .intOverflow) := by
    intro size hlarge
    have hdouble : doubled (size : ℤ) = .error .intOverflow := if_neg (by omega)
    rw [inflateRound_of_bufError (Int.natCast_nonneg size) (hcode size), hdouble]
  intro rounds
  induction rounds with
  | zero =>
    intro size hlarge
    rw [pow_zero, mul_one] at hlarge
    exact (mem_loop_of_end (hoverflow (by omega))).mpr rfl
  | succ rounds ih =>
    intro size hlarge
    by_cases hfits : size * 2 < 2 ^ 31
    · rw [mem_loop_of_next (inflateRound_of_fits hfits (hcode size))]
      exact ih (by rwa [mul_assoc, ← pow_succ'])
    · exact (mem_loop_of_end (hoverflow (Nat.not_lt.mp hfits))).mpr rfl

/-- The loop ends when one of its sizes has the room that the verdict needs. -/
theorem exists_mem_retry {needed : ℕ} (hneed : needed ∈ verdicts.need (body.take srcLen.toNat)) :
    ∀ {round size : ℕ}, needed ≤ size * 2 ^ round → size * 2 ^ round < 2 ^ 31 →
      ∃ buffer, .ok buffer ∈ loop (inflateRound zlib body srcLen) (size : ℤ) := by
  have hend : ∀ {size : ℕ}, needed ≤ size →
      ∃ buffer, .ok buffer ∈ loop (inflateRound zlib body srcLen) (size : ℤ) := by
    intro size hroom
    have hcode : (gzDecompress zlib body srcLen size).1 ≠ zBufError :=
      verdicts.ne_bufError_iff.mpr ⟨needed, hneed, hroom⟩
    have hlast := inflateRound_of_verdict (Int.natCast_nonneg size) hcode
    exact ⟨_, (mem_loop_of_end hlast).mpr rfl⟩
  intro round
  induction round with
  | zero =>
    intro size hroom _
    rw [pow_zero, mul_one] at hroom
    exact hend hroom
  | succ round ih =>
    intro size hroom hint
    by_cases hcode : (gzDecompress zlib body srcLen size).1 = zBufError
    · rw [pow_succ', ← mul_assoc] at hroom hint
      obtain ⟨buffer, hbuffer⟩ := ih hroom hint
      have hnext := inflateRound_of_fits (first_size_lt hint) hcode
      exact ⟨buffer, (mem_loop_of_next hnext).mpr hbuffer⟩
    · obtain ⟨other, hother, hle⟩ := verdicts.ne_bufError_iff.mp hcode
      obtain rfl := Option.mem_unique hneed hother
      exact hend hle

/-- The loop ends with a buffer, and with all of its sizes positive values of `int`, if and only if
the length of the body is positive as an `int`, zlib comes to a verdict on that many bytes of it,
and one of the sizes has the room for the verdict and is an `int`. -/
theorem retry_ends_iff (body : Bytes) :
    RetryEnds zlib body (toInt32 body.length) ↔
      0 < toInt32 body.length ∧
        ∃ needed ∈ verdicts.need (body.take (toInt32 body.length).toNat), ∃ round : ℕ,
          needed ≤ (toInt32 body.length).toNat * 2 ^ (round + 1) ∧
            (toInt32 body.length).toNat * 2 ^ (round + 1) < 2 ^ 31 := by
  generalize toInt32 body.length = srcLen
  constructor
  · rintro ⟨destLen, hdouble, ⟨buffer, hbuffer⟩, hsizes⟩
    obtain ⟨rfl, -⟩ := doubled_eq_ok_iff.mp hdouble
    have hpos : 0 < srcLen := by
      have hstart := (hsizes (srcLen * 2) Relation.ReflTransGen.refl).1
      omega
    obtain ⟨size, rfl⟩ := Int.eq_ofNat_of_zero_le hpos.le
    obtain ⟨last, hreached, hlast⟩ := exists_reached_of_mem_loop hbuffer
    obtain ⟨needed, hneed, hle⟩ := verdicts.ne_bufError_iff.mp (verdict_of_inflateRound hlast)
    obtain ⟨round, hround⟩ := exists_size_of_reached hreached
    have hlastSize : last = ((size * 2 ^ (round + 1) : ℕ) : ℤ) := by
      rw [hround, pow_succ', mul_assoc]
      push_cast
      rfl
    have hint := (hsizes last hreached).2
    rw [hlastSize] at hle hint
    rw [Int.toNat_natCast] at hle ⊢
    exact ⟨hpos, needed, hneed, round, hle, by exact_mod_cast hint⟩
  · rintro ⟨hpos, needed, hneed, round, hroom, hint⟩
    obtain ⟨size, rfl⟩ := Int.eq_ofNat_of_zero_le hpos.le
    rw [Int.toNat_natCast, pow_succ', ← mul_assoc] at hroom hint
    have hfirst : size * 2 < 2 ^ 31 := first_size_lt hint
    refine ⟨_, doubled_natCast hfirst, exists_mem_retry verdicts hneed hroom hint,
      fun other hreached ↦ ?_⟩
    exact positive_of_reached (by omega) (by omega) hreached

end Verdicts

theorem retry_ends_of_list :
    RetryEnds listSample.zlib (listSample.zlib.gzip listSample.text)
      (toInt32 (listSample.zlib.gzip listSample.text).length) := by
  have hlength : (listSample.zlib.gzip listSample.text).length = 26 := by decide
  have hint : toInt32 (listSample.zlib.gzip listSample.text).length = 26 := by
    rw [hlength]
    exact toInt32_of_lt (by omega)
  have htake : (listSample.zlib.gzip listSample.text).take (26 : ℤ).toNat =
      listSample.zlib.gzip listSample.text := List.take_of_length_le hlength.le
  refine (retry_ends_iff listSample.verdicts _).mpr ?_
  rw [hint, htake]
  exact ⟨by omega, 16, listSample.verdicts.need_gzip listSample.text, 0, by decide, by decide⟩

/-- An empty body is never done with, and the first byte of a stream alone makes the size
overflow. -/
theorem retry_not_ending :
    (¬ RetryEnds listSample.zlib [] (toInt32 (List.length ([] : Bytes))) ∧
      ∀ result, result ∉ loop (inflateRound listSample.zlib [] 0) 0) ∧
    (¬ RetryEnds listSample.zlib [31] (toInt32 (List.length ([31] : Bytes))) ∧
      .error .intOverflow ∈ loop (inflateRound listSample.zlib [31] 1) 2) := by
  have hempty : toInt32 (List.length ([] : Bytes)) = 0 := toInt32_of_lt (by simp)
  have hfirst : toInt32 (List.length ([31] : Bytes)) = 1 := toInt32_of_lt (by simp)
  have hpart : listSample.zlib.gzip [] = [31] ++ (listSample.zlib.gzip []).drop 1 := by decide
  have hneed : listSample.verdicts.need (List.take (Int.toNat 1) [31]) = none :=
    listSample.verdicts.need_of_missing hpart (by decide)
  have hoverflow : .error .intOverflow ∈ loop (inflateRound listSample.zlib [31] 1) 2 :=
    mem_retry_of_need_none listSample.verdicts hneed (show 2 ^ 31 ≤ 2 * 2 ^ 30 by omega)
  rw [hempty, hfirst]
  refine ⟨⟨?_, not_mem_retry_of_empty _⟩, ?_, hoverflow⟩
  · rintro ⟨destLen, hdouble, ⟨buffer, hbuffer⟩, -⟩
    obtain ⟨rfl, -⟩ := doubled_eq_ok_iff.mp hdouble
    exact not_mem_retry_of_empty _ _ hbuffer
  · rintro ⟨destLen, hdouble, ⟨buffer, hbuffer⟩, -⟩
    obtain ⟨rfl, -⟩ := doubled_eq_ok_iff.mp hdouble
    exact absurd (Computation.mem_unique hoverflow hbuffer) nofun

end TradeServers.DeliTimeServer
