import TradeServers.QuoteClient.Results

/-!
# Bodies that arrive twice

Both upstream connections send the same ticks. A body that arrives while its copy is waiting in the
buffer is dropped, but a body that arrives after a worker took its copy is accepted again.
`results_per_body` says how many results a body can lead to, and `second_copy_accepted` shows the
case of two.
-/

set_option autoImplicit false
set_option relaxedAutoImplicit false

namespace TradeServers.QuoteClient

open Execution

section Duplicates

variable {Double : Type} {platform : Platform Double} {workers : ℕ} {state next : State Double}
  {event : Event}

/-! ### From arrivals to results -/

/-- Every accepted body came in a quote of its own. -/
theorem accepted_sublist_of_move (hbuffered : ∃ queue, Buffered state queue)
    (haccepted : state.accepted.Sublist (state.quotes.map Prod.snd))
    (hmove : Move platform workers state event next) :
    next.accepted.Sublist (next.quotes.map Prod.snd) := by
  obtain ⟨queue, hbuffered⟩ := hbuffered
  cases hmove with
  | quote feed message body =>
    have hquotes : (state.quotes ++ [(feed, body)]).map Prod.snd =
        state.quotes.map Prod.snd ++ [body] := List.map_append
    rcases offer_cases hbuffered feed body with ⟨-, hoffer⟩ | ⟨-, -, hoffer⟩ |
      ⟨_, _, -, -, -, hoffer⟩ <;> rw [hoffer] <;> dsimp only <;> rw [hquotes]
    · exact haccepted.trans (List.sublist_append_left _ _)
    · exact haccepted.append_right [body]
    · exact haccepted.append_right [body]
  | _ => exact haccepted

/-- The quotes with a body are those of the two connections. -/
theorem count_quotes_eq (quotes : List (Feed × Bytes)) (body : Bytes) :
    (quotes.map Prod.snd).count body =
      quotes.count (.client1, body) + quotes.count (.client2, body) := by
  induction quotes with
  | nil => rfl
  | cons quote quotes ih =>
    obtain ⟨feed, other⟩ := quote
    rw [List.map_cons, List.count_cons, List.count_cons, List.count_cons, ih]
    cases feed <;> by_cases hbody : other = body <;> simp [hbody] <;> omega

/-! ### At most one result -/

/-- No copy of the body arrives after a worker took one. -/
def NotTakenBefore (body : Bytes) (state : State Double) : Event → Prop
  | .quote _ message => quoteOf message = some body → state.tickMutex = none → body ∉ state.taken
  | _ => True

/-- The body is waiting or was taken, and not both. -/
def OnlyOnce (body : Bytes) (state : State Double) : Prop :=
  state.taken.count body + state.tickList.count body ≤ 1

theorem count_tickList_offer_le {queue : DistinctQueue Bytes maxSize}
    (hbuffered : Buffered state queue) (feed : Feed) {body other : Bytes} (hother : other ≠ body) :
    (state.offer feed other).tickList.count body ≤ state.tickList.count body := by
  rcases offer_cases hbuffered feed other with ⟨-, hoffer⟩ | ⟨-, -, hoffer⟩ |
    ⟨front, rest, -, -, hitems, hoffer⟩
  · rw [hoffer]
  · rw [hoffer]
    dsimp only
    rw [List.count_append, List.count_singleton, if_neg (by simpa using hother), Nat.add_zero]
  · rw [hoffer]
    dsimp only
    have hcount := congrArg (List.count body) hitems
    rw [List.count_append, List.count_singleton, if_neg (by simpa using hother),
      ← hbuffered.tickList] at hcount
    have hrest : rest.count body ≤ (front :: rest).count body :=
      (List.sublist_cons_self front rest).count_le body
    omega

theorem onlyOnce_of_move {body : Bytes} (hsound : Sound platform state)
    (honce : OnlyOnce body state) (hguard : NotTakenBefore body state event)
    (hmove : Move platform workers state event next) : OnlyOnce body next := by
  obtain ⟨queue, hbuffered⟩ := hsound.buffered
  cases hmove with
  | quote feed message other hbody hfree =>
    unfold OnlyOnce at honce ⊢
    rw [taken_offer hbuffered]
    by_cases hother : other = body
    · obtain rfl := hother
      obtain ⟨after, hafter⟩ := buffered_offer hbuffered feed other
      have hnever : state.taken.count other = 0 := List.count_eq_zero.mpr (hguard hbody hfree)
      have hdistinct : (state.offer feed other).tickList.count other ≤ 1 :=
        List.nodup_iff_count_le_one.mp (hafter.tickList ▸ after.nodup) other
      omega
    · have hcount := count_tickList_offer_le hbuffered feed hother
      omega
  | takeTick worker front rest _ _ _ hlist =>
    unfold OnlyOnce at honce ⊢
    rw [taken_takeFront, List.count_append]
    rw [hlist] at honce
    have hmoved : (front :: rest).count body = [front].count body + rest.count body := by
      rw [← List.singleton_append, List.count_append]
    change state.taken.count body + [front].count body + rest.count body ≤ 1
    omega
  | _ => exact honce

theorem accepted_sublist_of_run {events : List Event} {final : State Double}
    (hrun : run (step platform workers) initial events = .ok final) :
    final.accepted.Sublist (final.quotes.map Prod.snd) := by
  have hmove : ∀ {state next : State Double} {event : Event},
      (∃ queue, Buffered state queue) ∧ state.accepted.Sublist (state.quotes.map Prod.snd) →
      Move platform workers state event next →
      (∃ queue, Buffered next queue) ∧ next.accepted.Sublist (next.quotes.map Prod.snd) :=
    fun hgood hmove ↦
      ⟨buffered_of_move platform hgood.1 hmove, accepted_sublist_of_move hgood.1 hgood.2 hmove⟩
  exact (run_invariant_of_move platform hmove ⟨⟨_, buffered_initial⟩, .slnil⟩ hrun).2

/-- A body of which no copy arrives after a worker took one is taken at most once. -/
theorem count_taken_le_one {events : List Event} {final : State Double} {body : Bytes}
    (hguarded : Guarded (step platform workers) (NotTakenBefore body) initial events)
    (hrun : run (step platform workers) initial events = .ok final) :
    final.taken.count body ≤ 1 := by
  have hstep : ∀ state event next, Sound platform state ∧ OnlyOnce body state →
      NotTakenBefore body state event → step platform workers state event = .ok next →
      Sound platform next ∧ OnlyOnce body next := by
    rintro state event next ⟨hsound, honce⟩ hguard hnext
    rcases move_of_step platform hnext with rfl | hmove
    · exact ⟨hsound, honce⟩
    · exact ⟨sound_of_move hsound hmove, onlyOnce_of_move hsound honce hguard hmove⟩
  have honce := (Guarded.run_invariant hstep ⟨sound_initial, Nat.zero_le 1⟩ hguarded hrun).2
  exact (Nat.le_add_right _ _).trans honce

/-- A body leads to no more results, and to no more pushes to each of its windows, than quotes with
it came in: to at most two when each connection brings it at most once. It leads to at most one when
no copy of it arrives after a worker took one. -/
theorem results_per_body {events : List Event} {final : State Double}
    (hrun : run (step platform workers) initial events = .ok final) (body : Bytes) :
    final.finished.count body ≤ (final.quotes.map Prod.snd).count body ∧
      final.updated.count body ≤ (final.quotes.map Prod.snd).count body ∧
      ((∀ feed, final.quotes.count (feed, body) ≤ 1) →
        final.finished.count body ≤ 2 ∧ final.updated.count body ≤ 2) ∧
      (Guarded (step platform workers) (NotTakenBefore body) initial events →
        final.finished.count body ≤ 1 ∧ final.updated.count body ≤ 1) := by
  have hsound := sound_run hrun
  have htaken : final.taken.count body ≤ (final.quotes.map Prod.snd).count body :=
    (hsound.taken_sublist.trans (accepted_sublist_of_run hrun)).count_le body
  have hfinished := hsound.prefix_taken.1.sublist.count_le body
  have hupdated := hsound.prefix_taken.2.sublist.count_le body
  refine ⟨hfinished.trans htaken, hupdated.trans htaken, fun hfeeds ↦ ?_, fun hguarded ↦ ?_⟩
  · have hfirst := hfeeds .client1
    have hsecond := hfeeds .client2
    rw [count_quotes_eq] at htaken
    omega
  · have hone := count_taken_le_one hguarded hrun
    exact ⟨hfinished.trans hone, hupdated.trans hone⟩

end Duplicates

/-- The first quote that comes in. -/
theorem results_of_first_quote :
    let final := (initial : State ℚ).quote .client1 (quoteMessage (ascii "a"))
    final.finished.count (ascii "a") ≤ (final.quotes.map Prod.snd).count (ascii "a") ∧
      final.updated.count (ascii "a") ≤ (final.quotes.map Prod.snd).count (ascii "a") ∧
      ((∀ feed, final.quotes.count (feed, ascii "a") ≤ 1) →
        final.finished.count (ascii "a") ≤ 2 ∧ final.updated.count (ascii "a") ≤ 2) ∧
      (Guarded (step Platform.exact 2) (NotTakenBefore (ascii "a")) initial
          [.quote .client1 (quoteMessage (ascii "a"))] →
        final.finished.count (ascii "a") ≤ 1 ∧ final.updated.count (ascii "a") ≤ 1) :=
  results_per_body run_first_quote (ascii "a")

/-! ### The second copy of a tick -/

/-- Both connections bring the tick, the second one after a worker is done with it. -/
def secondCopy : List Event :=
  [.quote .client1 (quoteMessage cornTick), .takeTick 0, .updateWindows 0, .pushResult 0,
    .quote .client2 (quoteMessage cornTick), .takeTick 1, .updateWindows 1, .pushResult 1]

/-- The two workers of `main` make a result of each copy. -/
theorem second_copy_accepted :
    ∃ final, run (step Platform.exact 2) initial secondCopy = .ok final ∧
      (∀ feed, final.quotes.count (feed, cornTick) ≤ 1) ∧
      final.finished.count cornTick = 2 ∧ final.updated.count cornTick = 2 := by
  have houtcome : (run (step Platform.exact 2) initial secondCopy).toOption.map
      (fun final ↦ (final.quotes, final.finished, final.updated)) =
        some ([(.client1, cornTick), (.client2, cornTick)], [cornTick, cornTick],
          [cornTick, cornTick]) := by decide +kernel
  obtain ⟨final, hrun, hfinal⟩ := exists_ok_of_toOption houtcome
  obtain ⟨hquotes, hrest⟩ := Prod.mk.inj hfinal
  obtain ⟨hfinished, hupdated⟩ := Prod.mk.inj hrest
  refine ⟨final, hrun, fun feed ↦ ?_, ?_, ?_⟩
  · rw [hquotes]
    cases feed <;> decide +kernel
  · rw [hfinished]
    decide +kernel
  · rw [hupdated]
    decide +kernel

end TradeServers.QuoteClient
