import TradeServers.Library.DelimitedStream
import Mathlib.Order.Bounds.Basic
import Mathlib.Tactic.SplitIfs

/-!
# Streams of frames with a length in their header

A sender writes a header of fixed length in front of every message, from which the receiver reads
how long the message is. The receiver refuses some headers, and then takes nothing more out of the
stream: the refused header stays in front of it.

`Framing.cut` splits a stream into the messages in front of the first frame that is refused or
incomplete, and the rest. `Framing.cut_append` says that cutting may be interrupted anywhere, and
`Framing.cut_frames` what is cut off a stream of which only a part has arrived: the longest
sequence of accepted messages that have arrived completely.
-/

set_option autoImplicit false
set_option relaxedAutoImplicit false

namespace TradeServers.LengthPrefixed

variable {α : Type*}

/-- How the receiver reads headers: their length, and the length of the message that a header
announces, or none when the header is refused. -/
structure Framing (α : Type*) where
  headerLen : ℕ
  headerLen_pos : 0 < headerLen
  announced : List α → Option ℕ

namespace Framing

variable (framing : Framing α)

/-! ### The reference cut -/

/-- The messages in front of the first frame that is refused or incomplete, and the rest. -/
def cut (stream : List α) : List (List α) × List α :=
  if _hheader : framing.headerLen ≤ stream.length then
    match framing.announced (stream.take framing.headerLen) with
    | none => ([], stream)
    | some length =>
      if framing.headerLen + length ≤ stream.length then
        let rest := cut (stream.drop (framing.headerLen + length))
        ((stream.drop framing.headerLen).take length :: rest.1, rest.2)
      else ([], stream)
  else ([], stream)
termination_by stream.length
decreasing_by
  have hpos := framing.headerLen_pos
  rw [List.length_drop]
  omega

/-- The header in front of the stream is refused. -/
def Refused (stream : List α) : Prop :=
  framing.headerLen ≤ stream.length ∧
    framing.announced (stream.take framing.headerLen) = none

/-- The stream starts with a message of the given length that has arrived completely. -/
structure Complete (stream : List α) (length : ℕ) : Prop where
  announced : framing.announced (stream.take framing.headerLen) = some length
  arrived : framing.headerLen + length ≤ stream.length

variable {framing} {stream header message : List α} {length : ℕ}

theorem cut_of_complete (hcomplete : framing.Complete stream length) :
    framing.cut stream =
      ((stream.drop framing.headerLen).take length ::
        (framing.cut (stream.drop (framing.headerLen + length))).1,
        (framing.cut (stream.drop (framing.headerLen + length))).2) := by
  have harrived := hcomplete.arrived
  rw [cut, dif_pos (by omega), hcomplete.announced]
  exact if_pos harrived

theorem cut_of_not_complete (hnone : ∀ length, ¬ framing.Complete stream length) :
    framing.cut stream = ([], stream) := by
  rw [cut]
  split_ifs with hheader
  · cases hannounced : framing.announced (stream.take framing.headerLen) with
    | none => rfl
    | some length => exact if_neg fun harrived ↦ hnone length ⟨hannounced, harrived⟩
  · rfl

/-- No message has arrived before the first byte. -/
theorem not_complete_nil (length : ℕ) : ¬ framing.Complete [] length := by
  intro hcomplete
  have harrived := hcomplete.arrived
  have hpos := framing.headerLen_pos
  rw [List.length_nil] at harrived
  omega

theorem Refused.not_complete (hrefused : framing.Refused stream) (length : ℕ) :
    ¬ framing.Complete stream length := by
  intro hcomplete
  have hnone := hrefused.2
  rw [hcomplete.announced] at hnone
  cases hnone

/-- More bytes do not help a refused header. -/
theorem Refused.append (hrefused : framing.Refused stream) (more : List α) :
    framing.Refused (stream ++ more) := by
  refine ⟨?_, ?_⟩
  · rw [List.length_append]
    exact hrefused.1.trans (Nat.le_add_right _ _)
  · rw [List.take_append_of_le_length hrefused.1]
    exact hrefused.2

/-- A message that has arrived stays complete. -/
theorem Complete.append (hcomplete : framing.Complete stream length) (more : List α) :
    framing.Complete (stream ++ more) length := by
  have harrived := hcomplete.arrived
  refine ⟨?_, ?_⟩
  · rw [List.take_append_of_le_length (by omega)]
    exact hcomplete.announced
  · rw [List.length_append]
    omega

variable (framing)

/-- Induction along the cut of a stream: nothing is complete, or a first message and the cut of what
follows it. -/
theorem cut_induction {motive : List α → Prop}
    (stuck : ∀ stream, (∀ length, ¬ framing.Complete stream length) → motive stream)
    (found : ∀ stream length, framing.Complete stream length →
      motive (stream.drop (framing.headerLen + length)) → motive stream)
    (stream : List α) : motive stream := by
  induction hsize : stream.length using Nat.strong_induction_on generalizing stream with
  | _ size ih =>
    by_cases hnone : ∀ length, ¬ framing.Complete stream length
    · exact stuck stream hnone
    · obtain ⟨length, hcomplete⟩ := not_forall_not.mp hnone
      have harrived := hcomplete.arrived
      have hpos := framing.headerLen_pos
      exact found stream length hcomplete (ih _ (by rw [List.length_drop]; omega) _ rfl)

/-- Cutting may be interrupted anywhere: what the first part leaves, extended by the second, is cut
as the whole stream would have been. -/
theorem cut_append (first second : List α) :
    framing.cut (first ++ second) =
      ((framing.cut first).1 ++ (framing.cut ((framing.cut first).2 ++ second)).1,
        (framing.cut ((framing.cut first).2 ++ second)).2) := by
  induction first using framing.cut_induction with
  | stuck first hnone =>
    rw [cut_of_not_complete hnone]
    rfl
  | found first length hcomplete ih =>
    have harrived := hcomplete.arrived
    have hbody : ((first ++ second).drop framing.headerLen).take length =
        (first.drop framing.headerLen).take length := by
      rw [List.drop_append_of_le_length (by omega), List.take_append_of_le_length]
      rw [List.length_drop]
      omega
    rw [cut_of_complete hcomplete, cut_of_complete (hcomplete.append second), hbody,
      List.drop_append_of_le_length harrived, ih]
    rfl

/-! ### Frames -/

/-- A frame as it is sent: a header of the right length, and a message whose length the header
announces if it is not refused. -/
structure Frame where
  header : List α
  message : List α
  header_length : header.length = framing.headerLen
  announces : ∀ length, framing.announced header = some length → length = message.length

variable {framing}

/-- The bytes of a frame. -/
def Frame.bytes (frame : framing.Frame) : List α := frame.header ++ frame.message

/-- The receiver accepts the header of the frame. -/
def Frame.Accepted (frame : framing.Frame) : Prop :=
  framing.announced frame.header = some frame.message.length

/-- The bytes of a sequence of frames. -/
def wire (frames : List framing.Frame) : List α := frames.flatMap Frame.bytes

theorem Frame.length_bytes (frame : framing.Frame) :
    frame.bytes.length = framing.headerLen + frame.message.length := by
  rw [Frame.bytes, List.length_append, frame.header_length]

theorem Frame.refused_of_not_accepted {frame : framing.Frame} (hrefused : ¬ frame.Accepted) :
    framing.announced frame.header = none := by
  cases hannounced : framing.announced frame.header with
  | none => rfl
  | some length =>
    rw [Frame.Accepted, hannounced, frame.announces length hannounced] at hrefused
    exact absurd rfl hrefused

theorem Frame.take_bytes (frame : framing.Frame) (more : List α) :
    (frame.bytes ++ more).take framing.headerLen = frame.header := by
  rw [Frame.bytes, List.append_assoc, ← frame.header_length, List.take_left]

theorem wire_cons (frame : framing.Frame) (frames : List framing.Frame) :
    wire (frame :: frames) = frame.bytes ++ wire frames := List.flatMap_cons

/-- An accepted frame in front of a stream is cut off. -/
theorem cut_frame {frame : framing.Frame} (haccepted : frame.Accepted) (more : List α) :
    framing.cut (frame.bytes ++ more) =
      (frame.message :: (framing.cut more).1, (framing.cut more).2) := by
  have hlength := frame.length_bytes
  have hcomplete : framing.Complete (frame.bytes ++ more) frame.message.length := by
    refine ⟨?_, ?_⟩
    · rw [frame.take_bytes]
      exact haccepted
    · rw [List.length_append, hlength]
      exact Nat.le_add_right _ _
  have hbody : ((frame.bytes ++ more).drop framing.headerLen).take frame.message.length =
      frame.message := by
    rw [Frame.bytes, List.append_assoc, ← frame.header_length, List.drop_left, List.take_left]
  rw [cut_of_complete hcomplete, hbody, ← hlength, List.drop_left]

/-- Nothing is cut off a part of a stream of frames whose first frame is refused or has not arrived
completely. -/
theorem cut_of_first_stuck {frame : framing.Frame} {frames : List framing.Frame}
    (hstream : stream <+: wire (frame :: frames))
    (hstuck : ¬ frame.Accepted ∨ stream.length < frame.bytes.length) :
    ∀ length, ¬ framing.Complete stream length := by
  intro length hcomplete
  have harrived := hcomplete.arrived
  have hheader : stream.take framing.headerLen = frame.header := by
    obtain ⟨more, hmore⟩ := hstream
    rw [← frame.take_bytes (wire frames), ← wire_cons, ← hmore,
      List.take_append_of_le_length (by omega)]
  have hannounced := hcomplete.announced
  rw [hheader] at hannounced
  have hlength := frame.announces length hannounced
  rcases hstuck with hrefused | hshort
  · rw [Frame.refused_of_not_accepted hrefused] at hannounced
    cases hannounced
  · rw [frame.length_bytes] at hshort
    omega

/-- Accepted frames in front of a stream are all cut off. -/
theorem cut_wire_append {frames : List framing.Frame} (haccepted : ∀ frame ∈ frames, frame.Accepted)
    (more : List α) :
    framing.cut (wire frames ++ more) =
      (frames.map Frame.message ++ (framing.cut more).1, (framing.cut more).2) := by
  induction frames with
  | nil => rfl
  | cons frame frames ih =>
    obtain ⟨hfirst, hlater⟩ := List.forall_mem_cons.mp haccepted
    rw [wire_cons, List.append_assoc, cut_frame hfirst, ih hlater]
    rfl

/-- The first frames that are accepted and have arrived completely in a stream. -/
def arrived (frames : List framing.Frame) (stream : List α) : Set ℕ :=
  {count | count ≤ frames.length ∧ (∀ frame ∈ frames.take count, frame.Accepted) ∧
    wire (frames.take count) <+: stream}

/-- What is cut off a part of a stream of frames: the longest sequence of messages that are accepted
and have arrived completely. The cut leaves the rest as it is, and it has come to a refused header
exactly when the frame behind these messages is refused and its header has arrived. -/
theorem cut_frames (frames : List framing.Frame) :
    ∀ stream, stream <+: wire frames →
      ∃ count, IsGreatest (arrived frames stream) count ∧
        (framing.cut stream).1 = (frames.take count).map Frame.message ∧
        stream = wire (frames.take count) ++ (framing.cut stream).2 ∧
        (framing.Refused (framing.cut stream).2 ↔ ∃ frame, frames[count]? = some frame ∧
          ¬ frame.Accepted ∧ framing.headerLen ≤ (framing.cut stream).2.length) := by
  induction frames with
  | nil =>
    intro stream hstream
    obtain rfl := List.prefix_nil.mp hstream
    rw [cut_of_not_complete not_complete_nil]
    refine ⟨0, ⟨⟨Nat.le_refl _, List.forall_mem_nil _, List.nil_prefix⟩, fun more hmore ↦ hmore.1⟩,
      rfl, rfl, ?_⟩
    constructor
    · rintro ⟨hlength, -⟩
      exact absurd hlength (Nat.not_le.mpr framing.headerLen_pos)
    · rintro ⟨frame, hnext, -⟩
      cases hnext
  | cons frame frames ih =>
    intro stream hstream
    by_cases hfirst : frame.Accepted ∧ frame.bytes.length ≤ stream.length
    · obtain ⟨haccepted, hlength⟩ := hfirst
      rw [wire_cons] at hstream
      obtain ⟨more, rfl⟩ := List.prefix_of_prefix_length_le (List.prefix_append _ _) hstream hlength
      rw [List.prefix_append_right_inj] at hstream
      obtain ⟨count, ⟨⟨hcount, hall, hprefix⟩, hgreatest⟩, hmessages, hrest, hrefused⟩ :=
        ih more hstream
      rw [cut_frame haccepted]
      refine ⟨count + 1, ⟨⟨Nat.succ_le_succ hcount, ?_, ?_⟩, ?_⟩, ?_, ?_, hrefused⟩
      · rw [List.take_succ_cons]
        exact List.forall_mem_cons.mpr ⟨haccepted, hall⟩
      · rw [List.take_succ_cons, wire_cons, List.prefix_append_right_inj]
        exact hprefix
      · rintro (_ | other) hother
        · exact Nat.zero_le _
        · refine Nat.succ_le_succ (hgreatest ⟨Nat.le_of_succ_le_succ hother.1, ?_, ?_⟩)
          · have hlater := hother.2.1
            rw [List.take_succ_cons] at hlater
            exact (List.forall_mem_cons.mp hlater).2
          · have hlater := hother.2.2
            rwa [List.take_succ_cons, wire_cons, List.prefix_append_right_inj] at hlater
      · rw [List.take_succ_cons, List.map_cons, hmessages]
      · rw [List.take_succ_cons, wire_cons, List.append_assoc, ← hrest]
    · have hstuck : ¬ frame.Accepted ∨ stream.length < frame.bytes.length := by
        by_cases haccepted : frame.Accepted
        · exact .inr (Nat.not_le.mp fun hlength ↦ hfirst ⟨haccepted, hlength⟩)
        · exact .inl haccepted
      rw [cut_of_not_complete (cut_of_first_stuck hstream hstuck)]
      refine ⟨0, ⟨⟨Nat.zero_le _, List.forall_mem_nil _, List.nil_prefix⟩, ?_⟩, rfl, rfl, ?_⟩
      · rintro (_ | other) hother
        · exact Nat.le_refl _
        · refine absurd ⟨?_, ?_⟩ hfirst
          · have hlater := hother.2.1
            rw [List.take_succ_cons] at hlater
            exact (List.forall_mem_cons.mp hlater).1
          · have hlater := hother.2.2.length_le
            rw [List.take_succ_cons, wire_cons, List.length_append] at hlater
            omega
      · have hheader (harrived : framing.headerLen ≤ stream.length) :
            stream.take framing.headerLen = frame.header := by
          obtain ⟨more, hmore⟩ := hstream
          rw [← frame.take_bytes (wire frames), ← wire_cons, ← hmore,
            List.take_append_of_le_length harrived]
        constructor
        · rintro ⟨harrived, hnone⟩
          rw [hheader harrived] at hnone
          refine ⟨frame, rfl, fun haccepted ↦ ?_, harrived⟩
          rw [Frame.Accepted, hnone] at haccepted
          cases haccepted
        · rintro ⟨other, hother, hrefused, harrived⟩
          obtain rfl := Option.some.inj hother
          exact ⟨harrived, by rw [hheader harrived, Frame.refused_of_not_accepted hrefused]⟩

end Framing

end TradeServers.LengthPrefixed
