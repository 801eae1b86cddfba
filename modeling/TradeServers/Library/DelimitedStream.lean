import Mathlib.Data.List.Infix
import Mathlib.Data.List.Flatten

/-!
# Streams cut at an in-band delimiter

A sender that ends every message with a fixed word and a receiver that searches for that word
exchange a stream whose message boundaries are found by content alone. This module is the theory
of that arrangement over an arbitrary alphabet.

`firstOccurrence` is the leftmost occurrence of a pattern. `Delimiter.cut` splits a stream at the
successive leftmost occurrences of a delimiter into the pieces between them and the remainder
behind the last one. `Delimiter.cut_append` says that cutting may be interrupted anywhere: the
remainder of a prefix, extended by the rest of the stream, is cut as the stream would have been.
`feed_eq_cut` concludes that no way of chunking a stream changes its pieces.

A `Delimiter` carries the proof that it is unbordered: no proper nonempty word is both a prefix
and a suffix of it. Occurrences then never overlap, so a message followed by the delimiter is
recovered exactly when the delimiter does not occur in the message
(`Delimiter.cut_frames_eq_iff`).
-/

set_option autoImplicit false
set_option relaxedAutoImplicit false

namespace TradeServers.DelimitedStream

variable {α : Type*} [DecidableEq α]

/-! ### The leftmost occurrence of a pattern -/

/-- The first position at which `pattern` occurs, if there is one. -/
def firstOccurrence (pattern : List α) : List α → Option ℕ
  | [] => if pattern <+: [] then some 0 else none
  | symbol :: rest =>
    if pattern <+: symbol :: rest then some 0
    else (firstOccurrence pattern rest).map (· + 1)

theorem firstOccurrence_eq_none_iff {pattern text : List α} :
    firstOccurrence pattern text = none ↔ ¬ pattern <:+: text := by
  induction text with
  | nil =>
    by_cases hpattern : pattern = [] <;> simp [firstOccurrence, hpattern]
  | cons symbol rest ih =>
    rw [firstOccurrence, List.infix_cons_iff, not_or]
    split_ifs with hstarts
    · simp [hstarts]
    · simp [hstarts, ih]

/-- A position is the first occurrence when the pattern stands there and at no earlier
position. -/
theorem firstOccurrence_eq_some_iff {pattern text : List α} {position : ℕ} :
    firstOccurrence pattern text = some position ↔
      position ≤ text.length ∧ pattern <+: text.drop position ∧
        ∀ earlier < position, ¬ pattern <+: text.drop earlier := by
  induction text generalizing position with
  | nil =>
    by_cases hpattern : pattern = []
    · simp only [firstOccurrence, hpattern, List.nil_prefix, if_true, Option.some.injEq,
        List.length_nil, Nat.le_zero_eq, List.drop_nil, not_true_eq_false]
      constructor
      · rintro rfl
        exact ⟨rfl, trivial, fun _ hlt ↦ absurd hlt (Nat.not_lt_zero _)⟩
      · rintro ⟨rfl, -⟩
        rfl
    · simp [firstOccurrence, hpattern]
  | cons symbol rest ih =>
    rw [firstOccurrence]
    split_ifs with hstarts
    · constructor
      · rintro ⟨rfl⟩
        exact ⟨Nat.zero_le _, hstarts, fun _ hlt ↦ absurd hlt (Nat.not_lt_zero _)⟩
      · rintro ⟨-, -, hearlier⟩
        cases position with
        | zero => rfl
        | succ position => exact absurd hstarts (hearlier 0 position.succ_pos)
    · cases position with
      | zero => simp [hstarts]
      | succ position =>
        simp only [Option.map_eq_some_iff, Nat.add_right_cancel_iff, exists_eq_right, ih,
          List.length_cons, Nat.add_le_add_iff_right, List.drop_succ_cons]
        refine and_congr_right fun _ ↦ and_congr_right fun _ ↦ ?_
        constructor
        · intro hrest earlier hearlier
          cases earlier with
          | zero => exact hstarts
          | succ earlier => exact hrest earlier (Nat.lt_of_succ_lt_succ hearlier)
        · intro hall earlier hearlier
          exact hall (earlier + 1) (Nat.succ_lt_succ hearlier)

/-- An occurrence leaves room for the whole pattern. -/
theorem add_length_le_of_firstOccurrence {pattern text : List α} {position : ℕ}
    (hfirst : firstOccurrence pattern text = some position) :
    position + pattern.length ≤ text.length := by
  obtain ⟨hposition, hstarts, -⟩ := firstOccurrence_eq_some_iff.mp hfirst
  have hlength := hstarts.length_le
  rw [List.length_drop] at hlength
  omega

/-- The text before the first occurrence does not contain the pattern. -/
theorem not_infix_take_of_firstOccurrence {pattern text : List α} {position : ℕ}
    (hpattern : pattern ≠ []) (hfirst : firstOccurrence pattern text = some position) :
    ¬ pattern <:+: text.take position := by
  rintro ⟨before, after, htake⟩
  obtain ⟨-, -, hearlier⟩ := firstOccurrence_eq_some_iff.mp hfirst
  have hlength := congrArg List.length htake
  simp only [List.length_append, List.length_take] at hlength
  have hpos : 0 < pattern.length := List.length_pos_iff.mpr hpattern
  refine hearlier before.length (by omega) ⟨after ++ text.drop position, ?_⟩
  conv_rhs => rw [← List.take_append_drop position text, ← htake]
  simp

/-- A longer text keeps the first occurrence: an occurrence that starts earlier would also end
earlier, hence inside the shorter text. -/
theorem firstOccurrence_append {pattern text : List α} {position : ℕ} (more : List α)
    (hfirst : firstOccurrence pattern text = some position) :
    firstOccurrence pattern (text ++ more) = some position := by
  have hroom := add_length_le_of_firstOccurrence hfirst
  obtain ⟨hposition, hstarts, hearlier⟩ := firstOccurrence_eq_some_iff.mp hfirst
  refine firstOccurrence_eq_some_iff.mpr ⟨by simp; omega, ?_, fun earlier hlt hfound ↦ ?_⟩
  · rw [List.drop_append_of_le_length hposition]
    exact hstarts.trans (List.prefix_append _ _)
  · rw [List.drop_append_of_le_length (by omega)] at hfound
    refine hearlier earlier hlt (List.prefix_of_prefix_length_le hfound
      (List.prefix_append _ _) ?_)
    rw [List.length_drop]
    omega

/-! ### Delimiters and the reference cut -/

/-- A word that can end messages in band: nonempty, and no proper nonempty prefix of it is also
a suffix, so that two occurrences of it never overlap. -/
structure Delimiter (α : Type*) where
  symbols : List α
  nonempty : symbols ≠ []
  unbordered : ∀ border, border <+: symbols → border <:+ symbols →
    border = [] ∨ border = symbols

namespace Delimiter

variable (delimiter : Delimiter α)

omit [DecidableEq α] in
theorem length_pos : 0 < delimiter.symbols.length :=
  List.length_pos_iff.mpr delimiter.nonempty

/-- The pieces of a stream between the successive leftmost occurrences of the delimiter, and the
remainder behind the last of them. -/
def cut (stream : List α) : List (List α) × List α :=
  match _hfirst : firstOccurrence delimiter.symbols stream with
  | none => ([], stream)
  | some position =>
    let rest := cut (stream.drop (position + delimiter.symbols.length))
    (stream.take position :: rest.1, rest.2)
termination_by stream.length
decreasing_by
  have hroom := add_length_le_of_firstOccurrence _hfirst
  have hpos := delimiter.length_pos
  rw [List.length_drop]
  omega

theorem cut_of_none {stream : List α}
    (hnone : firstOccurrence delimiter.symbols stream = none) :
    delimiter.cut stream = ([], stream) := by
  rw [cut]
  split
  · rfl
  · rename_i hsome
    rw [hnone] at hsome
    cases hsome

theorem cut_of_some {stream : List α} {position : ℕ}
    (hfirst : firstOccurrence delimiter.symbols stream = some position) :
    delimiter.cut stream =
      (stream.take position ::
        (delimiter.cut (stream.drop (position + delimiter.symbols.length))).1,
        (delimiter.cut (stream.drop (position + delimiter.symbols.length))).2) := by
  rw [cut]
  split
  · rename_i hnone
    rw [hfirst] at hnone
    cases hnone
  · rename_i found hsome
    rw [hfirst, Option.some.injEq] at hsome
    subst hsome
    rfl

theorem cut_of_not_infix {stream : List α} (habsent : ¬ delimiter.symbols <:+: stream) :
    delimiter.cut stream = ([], stream) :=
  delimiter.cut_of_none (firstOccurrence_eq_none_iff.mpr habsent)

/-- Induction along the cut of a stream: a stream without the delimiter, or a first piece and the
cut of what follows its delimiter. -/
theorem cut_induction {motive : List α → Prop}
    (absent : ∀ stream, firstOccurrence delimiter.symbols stream = none → motive stream)
    (found : ∀ stream position, firstOccurrence delimiter.symbols stream = some position →
      motive (stream.drop (position + delimiter.symbols.length)) → motive stream)
    (stream : List α) : motive stream := by
  induction hlength : stream.length using Nat.strong_induction_on generalizing stream with
  | _ length ih =>
    cases hfirst : firstOccurrence delimiter.symbols stream with
    | none => exact absent stream hfirst
    | some position =>
      have hroom := add_length_le_of_firstOccurrence hfirst
      have hpos := delimiter.length_pos
      exact found stream position hfirst
        (ih _ (by rw [List.length_drop]; omega) _ rfl)

/-- The remainder of a cut does not contain the delimiter. -/
theorem not_infix_remainder (stream : List α) :
    ¬ delimiter.symbols <:+: (delimiter.cut stream).2 := by
  induction stream using delimiter.cut_induction with
  | absent stream hnone =>
    rw [delimiter.cut_of_none hnone]
    exact firstOccurrence_eq_none_iff.mp hnone
  | found stream position hfirst ih =>
    rw [delimiter.cut_of_some hfirst]
    exact ih

/-- No piece of a cut contains the delimiter. -/
theorem not_infix_of_mem_cut (stream : List α) :
    ∀ piece ∈ (delimiter.cut stream).1, ¬ delimiter.symbols <:+: piece := by
  induction stream using delimiter.cut_induction with
  | absent stream hnone =>
    rw [delimiter.cut_of_none hnone]
    simp
  | found stream position hfirst ih =>
    rw [delimiter.cut_of_some hfirst]
    intro piece hpiece
    rcases List.mem_cons.mp hpiece with rfl | hrest
    · exact not_infix_take_of_firstOccurrence delimiter.nonempty hfirst
    · exact ih piece hrest

/-- The pieces, each followed by the delimiter, and the remainder make up the stream. -/
theorem flatten_cut (stream : List α) :
    ((delimiter.cut stream).1.map (· ++ delimiter.symbols)).flatten ++ (delimiter.cut stream).2 =
      stream := by
  induction stream using delimiter.cut_induction with
  | absent stream hnone =>
    rw [delimiter.cut_of_none hnone]
    rfl
  | found stream position hfirst ih =>
    rw [delimiter.cut_of_some hfirst]
    obtain ⟨-, ⟨rest, hrest⟩, -⟩ := firstOccurrence_eq_some_iff.mp hfirst
    have hdrop : stream.drop (position + delimiter.symbols.length) = rest := by
      rw [← List.drop_drop, ← hrest, List.drop_left]
    rw [hdrop] at ih ⊢
    calc ((stream.take position :: (delimiter.cut rest).1).map
            (· ++ delimiter.symbols)).flatten ++ (delimiter.cut rest).2
        = stream.take position ++ (delimiter.symbols ++
            (((delimiter.cut rest).1.map (· ++ delimiter.symbols)).flatten ++
              (delimiter.cut rest).2)) := by
          simp
      _ = stream := by rw [ih, hrest, List.take_append_drop]

/-- A piece and its delimiter fit into the stream. -/
theorem length_add_le_of_mem_cut {stream piece : List α}
    (hpiece : piece ∈ (delimiter.cut stream).1) :
    piece.length + delimiter.symbols.length ≤ stream.length := by
  obtain ⟨before, after, hsplit⟩ := List.append_of_mem hpiece
  have hlength := congrArg List.length (delimiter.flatten_cut stream)
  rw [hsplit] at hlength
  simp only [List.map_append, List.map_cons, List.flatten_append, List.flatten_cons,
    List.length_append] at hlength
  omega

/-- Cutting may be interrupted anywhere: the remainder of the first part, extended by the second,
is cut as the whole stream would have been. -/
theorem cut_append (first second : List α) :
    delimiter.cut (first ++ second) =
      ((delimiter.cut first).1 ++ (delimiter.cut ((delimiter.cut first).2 ++ second)).1,
        (delimiter.cut ((delimiter.cut first).2 ++ second)).2) := by
  induction first using delimiter.cut_induction with
  | absent first hnone =>
    rw [delimiter.cut_of_none hnone]
    rfl
  | found first position hfirst ih =>
    have hroom := add_length_le_of_firstOccurrence hfirst
    rw [delimiter.cut_of_some hfirst,
      delimiter.cut_of_some (firstOccurrence_append second hfirst),
      List.drop_append_of_le_length hroom, List.take_append_of_le_length (by omega), ih]
    rfl

/-! ### Messages that end with the delimiter -/

/-- No match straddles the end of a message: a message without the delimiter, followed by it, has
its first occurrence exactly at its end. -/
theorem firstOccurrence_frame {message : List α} (habsent : ¬ delimiter.symbols <:+: message)
    (more : List α) :
    firstOccurrence delimiter.symbols (message ++ (delimiter.symbols ++ more)) =
      some message.length := by
  refine firstOccurrence_eq_some_iff.mpr ⟨by simp, ?_, fun earlier hlt hfound ↦ ?_⟩
  · rw [List.drop_left]
    exact List.prefix_append _ _
  · rw [List.drop_append_of_le_length hlt.le] at hfound
    -- An occurrence that ends inside the message contradicts `habsent`; one that runs into the
    -- delimiter has a border of it as its overlap.
    by_cases hinside : delimiter.symbols.length ≤ (message.drop earlier).length
    · have hstarts : delimiter.symbols <+: message.drop earlier :=
        List.prefix_of_prefix_length_le hfound (List.prefix_append _ _) hinside
      exact habsent (hstarts.isInfix.trans (List.drop_suffix _ _).isInfix)
    · have hhead : message.drop earlier <+: delimiter.symbols :=
        List.prefix_of_prefix_length_le (List.prefix_append _ _) hfound (by omega)
      obtain ⟨overlap, hoverlap⟩ := hhead
      have htail : overlap <+: delimiter.symbols ++ more := by
        rw [← hoverlap, List.prefix_append_right_inj, hoverlap] at hfound
        exact hfound
      have hlength := congrArg List.length hoverlap
      simp only [List.length_append, List.length_drop] at hlength hinside
      have hborder : overlap <+: delimiter.symbols :=
        List.prefix_of_prefix_length_le htail (List.prefix_append _ _) (by omega)
      rcases delimiter.unbordered overlap hborder ⟨_, hoverlap⟩ with hnil | hall
      · rw [hnil, List.length_nil] at hlength
        omega
      · rw [hall] at hlength
        omega

/-- A message without the delimiter is the first piece of a stream that starts with it and a
delimiter. -/
theorem cut_frame {message : List α} (habsent : ¬ delimiter.symbols <:+: message)
    (more : List α) :
    delimiter.cut (message ++ (delimiter.symbols ++ more)) =
      (message :: (delimiter.cut more).1, (delimiter.cut more).2) := by
  have hdrop : (message ++ (delimiter.symbols ++ more)).drop
      (message.length + delimiter.symbols.length) = more := by
    rw [← List.drop_drop, List.drop_left, List.drop_left]
  rw [delimiter.cut_of_some (delimiter.firstOccurrence_frame habsent more), hdrop,
    List.take_left]

/-- The pieces that a message contributes: those inside it, and its own remainder, which the
delimiter behind it completes. -/
def piecesOf (message : List α) : List (List α) :=
  (delimiter.cut message).1 ++ [(delimiter.cut message).2]

theorem piecesOf_of_not_infix {message : List α} (habsent : ¬ delimiter.symbols <:+: message) :
    delimiter.piecesOf message = [message] := by
  rw [piecesOf, delimiter.cut_of_not_infix habsent]
  rfl

/-- A stream of messages that each end with the delimiter. -/
def frames (messages : List (List α)) : List α :=
  (messages.map (· ++ delimiter.symbols)).flatten

omit [DecidableEq α] in
@[simp] theorem frames_nil : delimiter.frames [] = [] := rfl

omit [DecidableEq α] in
@[simp] theorem frames_cons (message : List α) (messages : List (List α)) :
    delimiter.frames (message :: messages) =
      message ++ (delimiter.symbols ++ delimiter.frames messages) := by
  simp [frames]

/-- The cut of a stream of framed messages, whatever the messages contain. -/
theorem cut_frames (messages : List (List α)) :
    delimiter.cut (delimiter.frames messages) = (messages.flatMap delimiter.piecesOf, []) := by
  induction messages with
  | nil =>
    have habsent : ¬ delimiter.symbols <:+: ([] : List α) := by
      rw [List.infix_nil]
      exact delimiter.nonempty
    rw [frames_nil, delimiter.cut_of_not_infix habsent]
    rfl
  | cons message messages ih =>
    rw [frames_cons, cut_append, delimiter.cut_frame (delimiter.not_infix_remainder message), ih,
      List.flatMap_cons, piecesOf, List.append_assoc]
    rfl

/-- The messages are recovered exactly when none of them contains the delimiter. -/
theorem cut_frames_eq_iff (messages : List (List α)) :
    (delimiter.cut (delimiter.frames messages)).1 = messages ↔
      ∀ message ∈ messages, ¬ delimiter.symbols <:+: message := by
  constructor
  · intro hcut message hmessage
    rw [← hcut] at hmessage
    exact delimiter.not_infix_of_mem_cut _ message hmessage
  · intro habsent
    rw [cut_frames]
    show messages.flatMap delimiter.piecesOf = messages
    induction messages with
    | nil => rfl
    | cons message messages ih =>
      rw [List.flatMap_cons, delimiter.piecesOf_of_not_infix (habsent message (by simp)),
        ih fun other hother ↦ habsent other (by simp [hother])]
      rfl

/-- A piece of a stream of framed messages lies inside one of the messages. -/
theorem exists_length_le_of_mem_cut_frames {messages : List (List α)} {piece : List α}
    (hpiece : piece ∈ (delimiter.cut (delimiter.frames messages)).1) :
    ∃ message ∈ messages, piece.length ≤ message.length := by
  rw [cut_frames] at hpiece
  obtain ⟨message, hmessage, hmem⟩ := List.mem_flatMap.mp hpiece
  refine ⟨message, hmessage, ?_⟩
  rcases List.mem_append.mp hmem with hinner | hlast
  · have hroom := delimiter.length_add_le_of_mem_cut hinner
    omega
  · have hlength := congrArg List.length (delimiter.flatten_cut message)
    rw [List.mem_singleton.mp hlast]
    rw [List.length_append] at hlength
    omega

end Delimiter

/-! ### Receiving in chunks -/

section Receiving

variable {σ : Type*}

/-- A receiver with a store `σ`: every chunk is appended to the store, and the receiver then takes
the messages it can deliver out of it. -/
def feed (append : σ → List α → σ) (receive : σ → List (List α) × σ) :
    σ → List (List α) → List (List α) × σ
  | store, [] => ([], store)
  | store, chunk :: chunks =>
    let now := receive (append store chunk)
    let later := feed append receive now.2 chunks
    (now.1 ++ later.1, later.2)

omit [DecidableEq α] in
/-- Chunks that arrive later are dealt with behind the earlier ones. -/
theorem feed_append (append : σ → List α → σ) (receive : σ → List (List α) × σ)
    (first second : List (List α)) : ∀ store, feed append receive store (first ++ second) =
      ((feed append receive store first).1 ++
        (feed append receive (feed append receive store first).2 second).1,
        (feed append receive (feed append receive store first).2 second).2) := by
  induction first with
  | nil => exact fun _ ↦ rfl
  | cons chunk first ih =>
    intro store
    rw [List.cons_append, feed, ih]
    simp only [feed, List.append_assoc]

/-- Along a run of `feed`, every store handed to the receiver satisfies the predicate. -/
def FeedAll (append : σ → List α → σ) (receive : σ → List (List α) × σ) (good : σ → Prop) :
    σ → List (List α) → Prop
  | _, [] => True
  | store, chunk :: chunks =>
    good (append store chunk) ∧
      FeedAll append receive good (receive (append store chunk)).2 chunks

variable (delimiter : Delimiter α) {held : σ → List α} {append : σ → List α → σ}
  {receive : σ → List (List α) × σ} {good : σ → Prop}

omit [DecidableEq α] in
theorem feedAll_of_forall (hgood : ∀ store, good store) (chunks : List (List α)) :
    ∀ store, FeedAll append receive good store chunks := by
  induction chunks with
  | nil => exact fun _ ↦ trivial
  | cons chunk chunks ih => exact fun store ↦ ⟨hgood _, ih _⟩

omit [DecidableEq α] in
/-- Let a way of cutting be resumable: a stream is cut as its first part, and then as what that
leaves together with the rest. A receiver that cuts every good store then delivers, chunk by chunk,
the cut of the concatenation of the chunks. The invariant is that there is nothing to cut off what
is held back. -/
theorem feed_of_resumable {cut : List α → List (List α) × List α}
    (hresume : ∀ first second, cut (first ++ second) =
      ((cut first).1 ++ (cut ((cut first).2 ++ second)).1, (cut ((cut first).2 ++ second)).2))
    (happend : ∀ store chunk, held (append store chunk) = held store ++ chunk)
    (hreceive : ∀ store, good store →
      (receive store).1 = (cut (held store)).1 ∧ held (receive store).2 = (cut (held store)).2)
    (chunks : List (List α)) :
    ∀ store, cut (held store) = ([], held store) → FeedAll append receive good store chunks →
      (feed append receive store chunks).1 = (cut (held store ++ chunks.flatten)).1 ∧
        held (feed append receive store chunks).2 = (cut (held store ++ chunks.flatten)).2 := by
  induction chunks with
  | nil =>
    intro store hnothing _
    rw [List.flatten_nil, List.append_nil, hnothing]
    exact ⟨rfl, rfl⟩
  | cons chunk chunks ih =>
    intro store _ hall
    obtain ⟨hnow, hlater⟩ := hall
    obtain ⟨hmessages, hheld⟩ := hreceive _ hnow
    rw [happend] at hmessages hheld
    have hagain : cut (cut (held store ++ chunk)).2 = ([], (cut (held store ++ chunk)).2) := by
      have hwhole := hresume (held store ++ chunk) []
      rw [List.append_nil, List.append_nil] at hwhole
      have hnone := congrArg Prod.fst hwhole
      exact Prod.ext (List.self_eq_append_right.mp hnone) (congrArg Prod.snd hwhole).symm
    obtain ⟨hrest, hend⟩ := ih _ (hheld ▸ hagain) hlater
    rw [hheld] at hrest hend
    rw [List.flatten_cons, ← List.append_assoc, hresume (held store ++ chunk)]
    unfold feed
    exact ⟨congrArg₂ (· ++ ·) hmessages hrest, hend⟩

omit [DecidableEq α] in
/-- What each chunk preserves holds after all of them. -/
theorem feed_invariant {keeps : σ → Prop}
    (hkeeps : ∀ store chunk, keeps store → keeps (receive (append store chunk)).2)
    (chunks : List (List α)) :
    ∀ store, keeps store → keeps (feed append receive store chunks).2 := by
  induction chunks with
  | nil => exact fun _ hstore ↦ hstore
  | cons chunk chunks ih => exact fun store hstore ↦ ih _ (hkeeps store chunk hstore)

/-- A receiver that cuts every good store at the delimiters delivers, chunk by chunk, the cut of the
concatenation of the chunks. -/
theorem feed_eq_cut (happend : ∀ store chunk, held (append store chunk) = held store ++ chunk)
    (hreceive : ∀ store, good store →
      (receive store).1 = (delimiter.cut (held store)).1 ∧
        held (receive store).2 = (delimiter.cut (held store)).2) (chunks : List (List α)) :
    ∀ store, ¬ delimiter.symbols <:+: held store → FeedAll append receive good store chunks →
      (feed append receive store chunks).1 =
          (delimiter.cut (held store ++ chunks.flatten)).1 ∧
        held (feed append receive store chunks).2 =
          (delimiter.cut (held store ++ chunks.flatten)).2 :=
  fun store habsent ↦ feed_of_resumable delimiter.cut_append happend hreceive chunks store
    (delimiter.cut_of_not_infix habsent)

/-- When the receiver cuts the stores whose pieces are good, a stream with only good pieces meets
only such stores, however it is chunked. -/
theorem feedAll_of_pieces {fine : List α → Prop}
    (happend : ∀ store chunk, held (append store chunk) = held store ++ chunk)
    (hreceive : ∀ store, (∀ piece ∈ (delimiter.cut (held store)).1, fine piece) →
      held (receive store).2 = (delimiter.cut (held store)).2) (chunks : List (List α)) :
    ∀ store, (∀ piece ∈ (delimiter.cut (held store ++ chunks.flatten)).1, fine piece) →
      FeedAll append receive (fun store ↦ ∀ piece ∈ (delimiter.cut (held store)).1, fine piece)
        store chunks := by
  induction chunks with
  | nil => exact fun _ _ ↦ trivial
  | cons chunk chunks ih =>
    intro store hfine
    rw [List.flatten_cons, ← List.append_assoc, delimiter.cut_append (held store ++ chunk)]
      at hfine
    have hnow : ∀ piece ∈ (delimiter.cut (held (append store chunk))).1, fine piece := by
      rw [happend]
      exact fun piece hpiece ↦ hfine piece (List.mem_append_left _ hpiece)
    refine ⟨hnow, ih _ ?_⟩
    rw [hreceive _ hnow, happend]
    exact fun piece hpiece ↦ hfine piece (List.mem_append_right _ hpiece)

end Receiving

end TradeServers.DelimitedStream
