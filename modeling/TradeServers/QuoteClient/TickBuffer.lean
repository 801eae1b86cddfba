import TradeServers.QuoteClient.Pipeline

/-!
# The tick buffer

`tickList` and `tickSet` are changed together by `onStringMessage`, by its overflow check and by the
workers. `buffered_run` says that in every reachable state they are one bounded queue of distinct
bodies, and `tick_buffer_invariant` what that means for the two containers and for the bodies that
left them.
-/

set_option autoImplicit false
set_option relaxedAutoImplicit false

namespace TradeServers.QuoteClient

open Execution

section Buffer

variable {Double : Type}

/-- The two containers, with their history, are the given queue. -/
structure Buffered (state : State Double) (queue : DistinctQueue Bytes maxSize) : Prop where
  tickList : state.tickList = queue.waiting
  tickSet : state.tickSet = queue.waiting.toFinset
  accepted : state.accepted = queue.accepted
  departed : state.departed = queue.departed

theorem buffered_initial :
    Buffered (initial : State Double) (DistinctQueue.empty Bytes maxSize) :=
  ⟨rfl, rfl, rfl, rfl⟩

variable {state : State Double} {queue : DistinctQueue Bytes maxSize}

theorem Buffered.mem_tickSet_iff (hbuffered : Buffered state queue) (body : Bytes) :
    body ∈ state.tickSet ↔ body ∈ queue.waiting := by
  rw [hbuffered.tickSet, List.mem_toFinset]

/-- Without its front, the rest of distinct items is the set without the front. -/
theorem erase_toFinset {front : Bytes} {rest : List Bytes} (hnodup : (front :: rest).Nodup) :
    (front :: rest).toFinset.erase front = rest.toFinset := by
  rw [List.toFinset_cons]
  exact Finset.erase_insert fun hmem ↦ (List.nodup_cons.mp hnodup).1 (List.mem_toFinset.mp hmem)

theorem insert_toFinset (waiting : List Bytes) (body : Bytes) :
    insert body waiting.toFinset = (waiting ++ [body]).toFinset := by
  rw [List.toFinset_append, Finset.union_comm]
  rfl

/-- The overflow check does nothing while there are not too many bodies. -/
theorem offer_of_short {feed : Feed} {body : Bytes} {inserted : State Double}
    (hinserted : State.insertTick { state with quotes := state.quotes ++ [(feed, body)] } body =
      inserted) (hshort : inserted.tickList.length ≤ maxSize) :
    state.offer feed body = inserted := by
  unfold State.offer
  rw [hinserted]
  dsimp only
  split
  · rfl
  · rw [if_neg (Nat.not_lt.mpr hshort)]

/-- The overflow check gives up the oldest body. -/
theorem offer_of_long {feed : Feed} {body front : Bytes} {rest : List Bytes}
    {inserted : State Double}
    (hinserted : State.insertTick { state with quotes := state.quotes ++ [(feed, body)] } body =
      inserted) (hlist : inserted.tickList = front :: rest) (hlong : maxSize ≤ rest.length) :
    state.offer feed body = inserted.popFront front rest false := by
  unfold State.offer
  rw [hinserted]
  dsimp only
  rw [hlist]
  exact if_pos (Nat.lt_succ_of_le hlong)

/-- What the critical section of `onStringMessage` does to the buffer: a body that is waiting
changes nothing, and a new one is put behind the others; then the oldest body is given up if there
are too many. -/
theorem offer_cases (hbuffered : Buffered state queue) (feed : Feed) (body : Bytes) :
    (body ∈ queue.waiting ∧
      state.offer feed body = { state with quotes := state.quotes ++ [(feed, body)] }) ∨
    (body ∉ queue.waiting ∧ queue.waiting.length < maxSize ∧
      state.offer feed body =
        { state with
          quotes := state.quotes ++ [(feed, body)]
          tickSet := insert body state.tickSet
          tickList := state.tickList ++ [body]
          accepted := state.accepted ++ [body] }) ∨
    ∃ front rest, body ∉ queue.waiting ∧ ¬ queue.waiting.length < maxSize ∧
      queue.waiting ++ [body] = front :: rest ∧
      state.offer feed body =
        { state with
          quotes := state.quotes ++ [(feed, body)]
          tickSet := (insert body state.tickSet).erase front
          tickList := rest
          accepted := state.accepted ++ [body]
          departed := state.departed ++ [⟨front, rest, false⟩] } := by
  have hbounded := queue.bounded
  rw [← hbuffered.tickList] at hbounded
  by_cases hmem : body ∈ queue.waiting
  · have hset : body ∈ state.tickSet := (hbuffered.mem_tickSet_iff body).mpr hmem
    exact .inl ⟨hmem, offer_of_short (if_pos hset) hbounded⟩
  · have hset : body ∉ state.tickSet := fun hin ↦ hmem ((hbuffered.mem_tickSet_iff body).mp hin)
    by_cases hroom : queue.waiting.length < maxSize
    · refine .inr (.inl ⟨hmem, hroom, offer_of_short (if_neg hset) ?_⟩)
      rw [← hbuffered.tickList] at hroom
      rw [List.length_append]
      exact hroom
    · cases hitems : queue.waiting ++ [body] with
      | nil => exact absurd hitems (List.append_ne_nil_of_right_ne_nil _ (List.cons_ne_nil _ _))
      | cons front rest =>
        refine .inr (.inr ⟨front, rest, hmem, hroom, rfl, ?_⟩)
        have hlong : maxSize ≤ rest.length := by
          have hlength := congrArg List.length hitems
          rw [List.length_append, List.length_singleton, List.length_cons] at hlength
          omega
        exact offer_of_long (if_neg hset) (hbuffered.tickList ▸ hitems) hlong

/-- The body of a quote waits when its critical section is over, whatever was given up for it. -/
theorem mem_tickList_offer (hbuffered : Buffered state queue) (feed : Feed) (body : Bytes) :
    body ∈ (state.offer feed body).tickList := by
  rcases offer_cases hbuffered feed body with ⟨hmem, hoffer⟩ | ⟨-, -, hoffer⟩ |
    ⟨front, rest, -, hfull, hitems, hoffer⟩
  · rw [hoffer]
    exact hbuffered.tickList ▸ hmem
  · rw [hoffer]
    exact List.mem_append_right _ (List.mem_singleton_self body)
  · rw [hoffer]
    change body ∈ rest
    cases hwaiting : queue.waiting with
    | nil =>
      rw [hwaiting] at hfull
      exact absurd (by decide) hfull
    | cons oldest others =>
      rw [hwaiting, List.cons_append] at hitems
      rw [← (List.cons.inj hitems).2]
      exact List.mem_append_right _ (List.mem_singleton_self body)

/-- A quote keeps the two containers together. -/
theorem buffered_offer (hbuffered : Buffered state queue) (feed : Feed) (body : Bytes) :
    ∃ queue, Buffered (state.offer feed body) queue := by
  rcases offer_cases hbuffered feed body with ⟨-, hoffer⟩ | ⟨habsent, hroom, hoffer⟩ |
    ⟨front, rest, habsent, hfull, hitems, hoffer⟩
  · rw [hoffer]
    exact ⟨queue, hbuffered.tickList, hbuffered.tickSet, hbuffered.accepted, hbuffered.departed⟩
  · rw [hoffer]
    refine ⟨queue.push body habsent hroom, ?_, ?_, ?_, hbuffered.departed⟩
    · exact congrArg (· ++ [body]) hbuffered.tickList
    · change insert body state.tickSet = (queue.waiting ++ [body]).toFinset
      rw [hbuffered.tickSet, insert_toFinset]
    · exact congrArg (· ++ [body]) hbuffered.accepted
  · rw [hoffer]
    refine ⟨queue.replaceOldest body habsent hfull hitems, rfl, ?_, ?_, ?_⟩
    · change (insert body state.tickSet).erase front = rest.toFinset
      rw [hbuffered.tickSet, insert_toFinset, hitems,
        erase_toFinset (hitems ▸ queue.nodup_concat habsent)]
    · change state.accepted ++ [body] = queue.departed.map Departure.item ++ front :: rest
      rw [hbuffered.accepted, ← queue.conserved, List.append_assoc, hitems]
    · exact congrArg (· ++ [⟨front, rest, false⟩]) hbuffered.departed

/-- A pop of a worker keeps the two containers together. -/
theorem buffered_takeFront (hbuffered : Buffered state queue) (worker : ℕ) {front : Bytes}
    {rest : List Bytes} (hlist : state.tickList = front :: rest) :
    ∃ queue, Buffered (state.takeFront worker front rest) queue := by
  have hwaiting : queue.waiting = front :: rest := hbuffered.tickList ▸ hlist
  refine ⟨queue.take hwaiting, rfl, ?_, ?_, ?_⟩
  · change state.tickSet.erase front = rest.toFinset
    rw [hbuffered.tickSet, hwaiting, erase_toFinset (hwaiting ▸ queue.nodup)]
  · change state.accepted = queue.departed.map Departure.item ++ front :: rest
    rw [hbuffered.accepted, ← queue.conserved, hwaiting]
  · exact congrArg (· ++ [⟨front, rest, true⟩]) hbuffered.departed

variable (platform : Platform Double) {workers : ℕ}

theorem buffered_of_move {next : State Double} {event : Event}
    (hbuffered : ∃ queue, Buffered state queue) (hmove : Move platform workers state event next) :
    ∃ queue, Buffered next queue := by
  obtain ⟨queue, hbuffered⟩ := hbuffered
  cases hmove with
  | quote feed message body => exact buffered_offer hbuffered feed body
  | takeTick worker front rest _ _ _ hlist => exact buffered_takeFront hbuffered worker hlist
  | _ =>
    exact ⟨queue, hbuffered.tickList, hbuffered.tickSet, hbuffered.accepted, hbuffered.departed⟩

/-- In every reachable state the two containers are one bounded queue of distinct bodies. -/
theorem buffered_run {events : List Event} {final : State Double}
    (hrun : run (step platform workers) initial events = .ok final) :
    ∃ queue, Buffered final queue :=
  run_invariant_of_move platform (buffered_of_move platform) ⟨_, buffered_initial⟩ hrun

/-- In every reachable state `tickSet` has the elements of `tickList`, which are distinct and at
most `maxSize`. Bodies have left in the order in which they were accepted, each when it was the
oldest, and a body was given up only with `maxSize` others behind it. No quote is lost on its way
in: the body of the next one waits when its critical section is over. -/
theorem tick_buffer_invariant {events : List Event} {final : State Double}
    (hrun : run (step platform workers) initial events = .ok final) :
    final.tickSet = final.tickList.toFinset ∧ final.tickList.Nodup ∧
      final.tickList.length ≤ maxSize ∧
      final.departed.map Departure.item ++ final.tickList = final.accepted ∧
      (∀ feed body, body ∈ (final.offer feed body).tickList) ∧
      ∀ earlier departure later, final.departed = earlier ++ departure :: later →
        earlier.map Departure.item ++ departure.item :: departure.behind <+: final.accepted ∧
        (departure.taken = false →
          departure.behind.length = maxSize ∧ (departure.item :: departure.behind).Nodup) := by
  obtain ⟨queue, hbuffered⟩ := buffered_run platform hrun
  have harrives := mem_tickList_offer hbuffered
  obtain ⟨hlist, hset, haccepted, hdeparted⟩ := hbuffered
  rw [hlist, hset, haccepted, hdeparted]
  refine ⟨rfl, queue.nodup, queue.bounded, queue.conserved, harrives,
    fun earlier departure later hsplit ↦ ?_⟩
  have hmem : departure ∈ queue.departed := by
    rw [hsplit]
    exact List.mem_append_right _ List.mem_cons_self
  exact ⟨queue.oldest earlier departure later hsplit, fun hgiven ↦
    ⟨queue.full departure hmem hgiven, queue.distinct departure hmem⟩⟩

end Buffer

/-- The first quote that comes in. -/
theorem tick_buffer_of_first_quote :
    let final := (initial : State ℚ).quote .client1 (quoteMessage (ascii "a"))
    final.tickSet = final.tickList.toFinset ∧ final.tickList.Nodup ∧
      final.tickList.length ≤ maxSize ∧
      final.departed.map Departure.item ++ final.tickList = final.accepted ∧
      (∀ feed body, body ∈ (final.offer feed body).tickList) ∧
      ∀ earlier departure later, final.departed = earlier ++ departure :: later →
        earlier.map Departure.item ++ departure.item :: departure.behind <+: final.accepted ∧
        (departure.taken = false →
          departure.behind.length = maxSize ∧ (departure.item :: departure.behind).Nodup) :=
  tick_buffer_invariant Platform.exact run_first_quote

end TradeServers.QuoteClient
