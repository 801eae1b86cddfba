import TradeServers.QuoteClient.Results

/-!
# Results on their way to the connections

`loopSend` walks over `checkConns_` with an iterator, while connections that log in are inserted
into the set and none is ever erased from it. `due_of_run` says what a connection gets of the
results that are taken from the queue once it is in the set. `order_and_completeness` puts the parts
of the pipeline together, from the acceptance of a tick to the connections.
-/

set_option autoImplicit false
set_option relaxedAutoImplicit false

namespace TradeServers.QuoteClient

open Execution

section Delivery

variable {Double : Type}

/-- The results that were sent to a connection, in their order. -/
def State.sentTo (state : State Double) (connection : ℕ) : List ResStruct :=
  (state.sent.filter fun entry ↦ entry.1 = connection).map Prod.snd

/-- The result that `loopSend` will still send to a connection in `checkConns_`: its iterator has
not passed it. -/
def Sender.pendingFor (connection : ℕ) : Sender → List ResStruct
  | .idle => []
  | .sending res iterator => if iterator ≤ connection then [res] else []

/-- What was sent to a connection and what is about to be. -/
def State.due (state : State Double) (connection : ℕ) : List ResStruct :=
  state.sentTo connection ++ state.sender.pendingFor connection

variable {platform : Platform Double} {workers : ℕ} {state next : State Double} {event : Event}
  {connection : ℕ}

/-- The iterator moves to the next connection: it has passed the current one and no connection
behind it. -/
theorem following_le_iff (hconnection : connection ∈ state.checkConns) (current : ℕ) :
    state.following current ≤ connection ↔ current < connection := by
  unfold State.following
  constructor
  · intro hle
    have hne : ((state.checkConns.filter fun other ↦ current < other).min : WithTop ℕ) ≠ ⊤ := by
      intro htop
      rw [htop] at hle
      exact absurd hle (by simp)
    obtain ⟨least, hleast⟩ := WithTop.ne_top_iff_exists.mp hne
    have hmem := Finset.mem_of_min hleast.symm
    rw [← hleast] at hle
    exact (Finset.mem_filter.mp hmem).2.trans_le (WithTop.coe_le_coe.mp hle)
  · intro hlater
    exact Finset.min_le (Finset.mem_filter.mpr ⟨hconnection, hlater⟩)

/-- Sending to the current connection settles what is due there and changes nothing elsewhere. -/
theorem due_sendTo {res : ResStruct} {current : ℕ} (hconnection : connection ∈ state.checkConns)
    (hsender : state.sender = .sending res current) :
    (state.sendTo res current).due connection = state.due connection := by
  have hbefore : state.sender.pendingFor connection =
      if current ≤ connection then [res] else [] := by
    rw [hsender]
    exact if_congr WithTop.coe_le_coe rfl rfl
  have hafter : (state.sendTo res current).sender.pendingFor connection =
      if current < connection then [res] else [] := by
    exact if_congr (following_le_iff hconnection current) rfl rfl
  have hsent : (state.sendTo res current).sentTo connection =
      state.sentTo connection ++ if current = connection then [res] else [] := by
    unfold State.sentTo State.sendTo
    rw [List.filter_append, List.map_append]
    by_cases hsame : current = connection
    · simp [hsame]
    · simp [hsame]
  rw [State.due, State.due, hbefore, hafter, hsent, List.append_assoc]
  congr 1
  rcases lt_trichotomy current connection with hlt | heq | hgt
  · rw [if_neg hlt.ne, if_pos hlt, if_pos hlt.le, List.nil_append]
  · rw [if_pos heq, if_neg heq.not_lt, if_pos heq.le, List.append_nil]
  · rw [if_neg hgt.ne', if_neg hgt.not_gt, if_neg hgt.not_ge, List.nil_append]

/-- A connection in `checkConns_` stays there, and each result that is taken from the queue is added
to what is due there. -/
theorem due_of_move (hconnection : connection ∈ state.checkConns)
    (hmove : Move platform workers state event next) :
    connection ∈ next.checkConns ∧
      ∃ more, next.popped = state.popped ++ more ∧
        next.due connection = state.due connection ++ more := by
  cases hmove with
  | quote feed message body =>
    obtain ⟨_, _, _, _, hoffer⟩ := offer_frame state feed body
    rw [hoffer]
    exact ⟨hconnection, [], (List.append_nil _).symm, (List.append_nil _).symm⟩
  | popResult res rest hsender =>
    refine ⟨hconnection, [res], rfl, ?_⟩
    have hmin : state.checkConns.min ≤ connection := Finset.min_le hconnection
    have hidle : state.due connection = state.sentTo connection := by
      rw [State.due, hsender, Sender.pendingFor, List.append_nil]
    rw [hidle]
    change state.sentTo connection ++
      (Sender.sending res state.checkConns.min).pendingFor connection = _
    rw [Sender.pendingFor, if_pos hmin]
  | send res current hsender =>
    exact ⟨hconnection, [], (List.append_nil _).symm,
      (due_sendTo hconnection hsender).trans (List.append_nil _).symm⟩
  | finish res hsender =>
    refine ⟨hconnection, [], (List.append_nil _).symm, ?_⟩
    have hpassed : ¬ (⊤ : WithTop ℕ) ≤ connection := by simp
    rw [List.append_nil, State.due, State.due, hsender, Sender.pendingFor, Sender.pendingFor,
      if_neg hpassed]
    rfl
  | login other =>
    exact ⟨Finset.mem_insert_of_mem hconnection, [], (List.append_nil _).symm,
      (List.append_nil _).symm⟩
  | _ => exact ⟨hconnection, [], (List.append_nil _).symm, (List.append_nil _).symm⟩

/-- From the time at which a connection is in `checkConns_`, the results that are due there are
those taken from the queue, in their order. -/
theorem due_of_run (hconnection : connection ∈ state.checkConns) {events : List Event}
    {final : State Double} (hrun : run (step platform workers) state events = .ok final) :
    connection ∈ final.checkConns ∧
      ∃ more, final.popped = state.popped ++ more ∧
        final.due connection = state.due connection ++ more := by
  have hmove : ∀ {now next : State Double} {event : Event},
      (connection ∈ now.checkConns ∧ ∃ more, now.popped = state.popped ++ more ∧
        now.due connection = state.due connection ++ more) →
      Move platform workers now event next →
      connection ∈ next.checkConns ∧ ∃ more, next.popped = state.popped ++ more ∧
        next.due connection = state.due connection ++ more := by
    rintro now next event ⟨hmem, more, hpopped, hdue⟩ hmove
    obtain ⟨hnext, later, hlater, hdueLater⟩ := due_of_move hmem hmove
    refine ⟨hnext, more ++ later, ?_, ?_⟩
    · rw [hlater, hpopped, List.append_assoc]
    · rw [hdueLater, hdue, List.append_assoc]
  exact run_invariant_of_move platform hmove
    ⟨hconnection, [], (List.append_nil _).symm, (List.append_nil _).symm⟩ hrun

/-! ### Well formed ticks -/

/-- A quote has a body that the worker gets a tick out of. -/
def CarriesTick (platform : Platform Double) : Event → Prop
  | .quote _ message => ∀ body, quoteOf message = some body →
    ∃ tick, parseTick platform body = .ok tick
  | _ => True

/-- A tick can be got out of every accepted body. -/
def AllParse (platform : Platform Double) (state : State Double) : Prop :=
  ∀ body ∈ state.accepted, ∃ tick, parseTick platform body = .ok tick

theorem allParse_of_move (hbuffered : ∃ queue, Buffered state queue)
    (hall : AllParse platform state) (htick : CarriesTick platform event)
    (hmove : Move platform workers state event next) : AllParse platform next := by
  obtain ⟨queue, hbuffered⟩ := hbuffered
  cases hmove with
  | quote feed message body hbody =>
    have hmore : ∀ other ∈ state.accepted ++ [body], ∃ tick, parseTick platform other = .ok tick :=
      List.forall_mem_append.mpr ⟨hall, List.forall_mem_singleton.mpr (htick body hbody)⟩
    unfold AllParse
    rcases offer_cases hbuffered feed body with ⟨-, hoffer⟩ | ⟨-, -, hoffer⟩ |
      ⟨_, _, -, -, -, hoffer⟩ <;> rw [hoffer]
    · exact hall
    · exact hmore
    · exact hmore
  | _ => exact hall

/-- The worker gets a tick out of the body that it has popped. -/
theorem parse_of_popped (hsound : Sound platform state) (hall : AllParse platform state)
    {worker : ℕ} {itFront : Bytes} (hphase : (state.workers worker).phase = .popped itFront) :
    ∃ tick, parseTick platform itFront = .ok tick := by
  have htaken : itFront ∈ state.taken := by
    rw [(hsound.stage.of_popped hphase).2.2.2.1]
    exact List.mem_append_right _ List.mem_cons_self
  exact hall itFront (hsound.taken_sublist.subset htaken)

/-- With well formed ticks every step succeeds. -/
theorem exists_step (hsound : Sound platform state) (hall : AllParse platform state)
    (event : Event) : ∃ next, step platform workers state event = .ok next := by
  cases event with
  | updateWindows worker =>
    change ∃ next, state.updateWindows platform worker = .ok next
    unfold State.updateWindows
    cases hphase : (state.workers worker).phase with
    | popped itFront =>
      obtain ⟨tick, hparse⟩ := parse_of_popped hsound hall hphase
      dsimp only
      rw [hparse]
      dsimp only
      split_ifs
      · exact ⟨_, rfl⟩
      · exact ⟨_, rfl⟩
    | _ => exact ⟨_, rfl⟩
  | _ => exact ⟨_, rfl⟩

/-- A run with well formed ticks never ends in an error. -/
theorem exists_run (workers : ℕ) {events : List Event}
    (hticks : ∀ event ∈ events, CarriesTick platform event) (hsound : Sound platform state)
    (hall : AllParse platform state) :
    ∃ final, run (step platform workers) state events = .ok final ∧
      Sound platform final ∧ AllParse platform final := by
  have hstep : ∀ (state : State Double) (event : Event),
      Sound platform state ∧ AllParse platform state → CarriesTick platform event →
      ∃ next, step platform workers state event = .ok next ∧
        Sound platform next ∧ AllParse platform next := by
    rintro state event ⟨hsound, hall⟩ htick
    obtain ⟨next, hnext⟩ := exists_step hsound hall event
    rcases move_of_step platform hnext with rfl | hmove
    · exact ⟨next, hnext, hsound, hall⟩
    · exact ⟨next, hnext, sound_of_move hsound hmove,
        allParse_of_move hsound.buffered hall htick hmove⟩
  exact Guarded.run_isOk hstep ⟨hsound, hall⟩ (guarded_of_forall_mem hticks state)

/-! ### Finishing what is under way -/

theorem step_finish {res : ResStruct} (hsender : state.sender = .sending res ⊤) :
    step platform workers state .sendNext = .ok { state with sender := .idle } := by
  change Except.ok state.sendNext = _
  rw [State.sendNext, hsender]

theorem step_send {res : ResStruct} {current : ℕ} (hsender : state.sender = .sending res current) :
    step platform workers state .sendNext = .ok (state.sendTo res current) := by
  change Except.ok state.sendNext = _
  rw [State.sendNext, hsender]
  rfl

/-- The iterator gets past the connections behind it. -/
theorem exists_run_sending (platform : Platform Double) (workers : ℕ) (res : ResStruct) (left : ℕ) :
    ∀ (state : State Double) (current : ℕ), state.sender = .sending res current →
      (state.checkConns.filter fun other ↦ current < other).card = left →
      ∃ count done, run (step platform workers) state (List.replicate count .sendNext) = .ok done ∧
        ∃ sent, done = { state with sender := .idle, sent := sent } := by
  induction left using Nat.strong_induction_on with
  | h left ih =>
    intro state current hsender hleft
    have hsend : step platform workers state .sendNext = .ok (state.sendTo res current) :=
      step_send hsender
    cases hfollowing : state.following current with
    | top =>
      have hfinish : step platform workers (state.sendTo res current) .sendNext =
          .ok { state.sendTo res current with sender := .idle } :=
        step_finish (congrArg (Sender.sending res) hfollowing)
      exact ⟨2, _, (run_cons_ok hsend _).trans (run_cons_ok hfinish []), _, rfl⟩
    | coe least =>
      have hmem : least ∈ state.checkConns.filter fun other ↦ current < other :=
        Finset.mem_of_min hfollowing
      have hfewer : (state.checkConns.filter fun other ↦ least < other).card < left := by
        rw [← hleft]
        apply Finset.card_lt_card
        refine ⟨fun other hother ↦ ?_, fun hall ↦ ?_⟩
        · obtain ⟨hin, hlater⟩ := Finset.mem_filter.mp hother
          exact Finset.mem_filter.mpr ⟨hin, (Finset.mem_filter.mp hmem).2.trans hlater⟩
        · exact lt_irrefl _ (Finset.mem_filter.mp (hall hmem)).2
      have hmoved : (state.sendTo res current).sender = .sending res least :=
        congrArg (Sender.sending res) hfollowing
      obtain ⟨count, done, hrun, sent, hdone⟩ :=
        ih _ hfewer (state.sendTo res current) least hmoved rfl
      exact ⟨count + 1, done, (run_cons_ok hsend _).trans hrun, sent, hdone⟩

/-- `loopSend` gets to the end of `checkConns_`. -/
theorem exists_run_sendNext (platform : Platform Double) (workers : ℕ) (state : State Double) :
    ∃ count done, run (step platform workers) state (List.replicate count .sendNext) = .ok done ∧
      ∃ sent, done = { state with sender := .idle, sent := sent } := by
  cases hsender : state.sender with
  | idle =>
    refine ⟨0, state, rfl, state.sent, ?_⟩
    rw [← hsender]
  | sending res iterator =>
    cases iterator with
    | top => exact ⟨1, _, run_cons_ok (step_finish hsender) [], state.sent, rfl⟩
    | coe current => exact exists_run_sending platform workers res _ state current hsender rfl

/-- A worker with a result queues it, and then no tick is on its way. -/
theorem run_pushResult (workers : ℕ) (hstage : Stage platform state) {worker : ℕ} {itFront : Bytes}
    {res : ResStruct} (hphase : (state.workers worker).phase = .updated itFront res)
    (hsender : state.sender = .idle) :
    step platform workers state (.pushResult worker) = .ok (state.push worker itFront res) ∧
      (state.push worker itFront res).finished = state.taken := by
  constructor
  · change Except.ok (state.pushResult worker) = _
    rw [State.pushResult, hphase]
    exact congrArg Except.ok (if_pos hsender)
  · exact ((stage_push hstage hphase).free_of_tickMutex rfl).2.2.1.symm

/-- The worker with a tick on its way queues the result. -/
theorem exists_run_round (workers : ℕ) (hsound : Sound platform state)
    (hall : AllParse platform state) (hsender : state.sender = .idle) :
    ∃ events done, run (step platform workers) state events = .ok done ∧
      done.taken = state.taken ∧ done.finished = done.taken ∧ done.sender = .idle ∧
      done.popped = state.popped := by
  cases hsound.stage with
  | free _ _ _ htaken => exact ⟨[], state, rfl, rfl, htaken.symm, hsender, rfl⟩
  | popped worker itFront _ hmap hphase =>
    obtain ⟨tick, hparse⟩ := parse_of_popped hsound hall hphase
    have hupdate : step platform workers state (.updateWindows worker) =
        .ok (state.update platform worker itFront tick) := by
      change state.updateWindows platform worker = _
      rw [State.updateWindows, hphase]
      dsimp only
      rw [hparse]
      exact if_pos hmap
    have hnext := stage_update hsound.stage hphase hparse
    have hresult : ((state.update platform worker itFront tick).workers worker).phase =
        .updated itFront ((state.workers worker).res platform tick
          (updateWindows platform state.queueMap tick).2) := by
      change (Function.update state.workers worker _ worker).phase = _
      rw [Function.update_self]
      rfl
    obtain ⟨hpush, hfinished⟩ := run_pushResult workers hnext hresult hsender
    exact ⟨[.updateWindows worker, .pushResult worker], _,
      (run_cons_ok hupdate _).trans (run_cons_ok hpush _), rfl, hfinished, hsender, rfl⟩
  | updated worker itFront res _ hphase =>
    obtain ⟨hpush, hfinished⟩ := run_pushResult workers hsound.stage hphase hsender
    exact ⟨[.pushResult worker], _, run_cons_ok hpush _, rfl, hfinished, hsender, rfl⟩

/-- Whatever is under way in a state can be finished: a tick on its way gets its result, and a
result that is being sent reaches the connections that it is due to. -/
theorem exists_run_finished (hsound : Sound platform state) (hall : AllParse platform state) :
    ∃ rest done, run (step platform workers) state rest = .ok done ∧
      done.taken = state.taken ∧ done.finished = done.taken ∧ done.popped = state.popped ∧
      ∀ connection ∈ state.checkConns, done.sentTo connection = state.due connection := by
  obtain ⟨count, middle, hsend, sent, hmiddle⟩ := exists_run_sendNext platform workers state
  have hidle : middle.sender = .idle := by rw [hmiddle]
  have hsoundMiddle : Sound platform middle :=
    run_invariant_of_move platform sound_of_move hsound hsend
  have hallMiddle : AllParse platform middle := by
    rw [hmiddle]
    exact hall
  obtain ⟨events, done, hround, htaken, hfinished, hsender, hpopped⟩ :=
    exists_run_round workers hsoundMiddle hallMiddle hidle
  have hrun := run_append_eq_ok_iff.mpr ⟨middle, hsend, hround⟩
  have htakenMiddle : middle.taken = state.taken := by
    rw [hmiddle]
    rfl
  have hpoppedMiddle : middle.popped = state.popped := by rw [hmiddle]
  refine ⟨_, done, hrun, htaken.trans htakenMiddle, hfinished, hpopped.trans hpoppedMiddle,
    fun connection hconnection ↦ ?_⟩
  obtain ⟨-, more, hmore, hdue⟩ := due_of_run hconnection hrun
  rw [hpopped, hpoppedMiddle, List.self_eq_append_right] at hmore
  rw [hmore, List.append_nil, State.due, hsender, Sender.pendingFor, List.append_nil] at hdue
  exact hdue

/-- The pipeline with well formed ticks. No run ends in an error. Ticks leave the buffer in the
order in which they were accepted; those that workers took get one result each, in this order,
except for at most one that is on its way; the results leave their queue in this order. A connection
that is in `checkConns_` gets every result that is taken from the queue afterwards, once and in this
order, as soon as `loopSend` has got past it; and what is under way can be finished. -/
theorem order_and_completeness (platform : Platform Double) (workers : ℕ) (events : List Event)
    (hticks : ∀ event ∈ events, CarriesTick platform event) :
    ∃ final, run (step platform workers) initial events = .ok final ∧
      final.departed.map Departure.item ++ final.tickList = final.accepted ∧
      (final.taken = final.finished ∨ ∃ itFront, final.taken = final.finished ++ [itFront]) ∧
      (∀ entry ∈ final.pushed, Belongs platform entry) ∧
      final.pushed.map Prod.snd = final.popped ++ final.resQue ∧
      (∀ earlier later middle, events = earlier ++ later →
        run (step platform workers) initial earlier = .ok middle →
        ∀ connection ∈ middle.checkConns, ∃ more, final.popped = middle.popped ++ more ∧
          final.due connection = middle.due connection ++ more) ∧
      ∃ rest done, run (step platform workers) final rest = .ok done ∧
        done.taken = final.taken ∧ done.finished = done.taken ∧ done.popped = final.popped ∧
        ∀ connection ∈ final.checkConns, done.sentTo connection = final.due connection := by
  obtain ⟨final, hrun, hsound, hall⟩ :=
    exists_run workers hticks sound_initial (List.forall_mem_nil _)
  obtain ⟨queue, hbuffered⟩ := hsound.buffered
  refine ⟨final, hrun, ?_, ?_, hsound.belongs, hsound.queued, ?_, exists_run_finished hsound hall⟩
  · rw [hbuffered.departed, hbuffered.tickList, hbuffered.accepted]
    exact queue.conserved
  · cases hsound.stage with
    | free _ _ _ htaken => exact .inl htaken
    | popped _ itFront _ _ _ _ htaken => exact .inr ⟨itFront, htaken⟩
    | updated _ itFront _ _ _ _ htaken => exact .inr ⟨itFront, htaken⟩
  · rintro earlier later middle rfl hearlier connection hconnection
    obtain ⟨reached, hreached, hlater⟩ := run_append_eq_ok_iff.mp hrun
    obtain rfl := Except.ok.inj (hearlier.symm.trans hreached)
    exact (due_of_run hconnection hlater).2

end Delivery

/-- The message with which a connection logs in. -/
def loginMessage : Bytes :=
  ascii "LGIN" ++ List.replicate 4 0 ++ ascii "TXT" ++ List.replicate 1 0 ++ lginBody

/-- A connection logs in, a tick arrives, and its result is sent. -/
def firstDelivery : List Event :=
  [.message 7 loginMessage, .quote .client1 (quoteMessage cornTick), .takeTick 0, .updateWindows 0,
    .pushResult 0, .popResult, .sendNext]

theorem carriesTick_firstDelivery : ∀ event ∈ firstDelivery, CarriesTick Platform.exact event := by
  have hquote : CarriesTick Platform.exact (.quote .client1 (quoteMessage cornTick)) := by
    intro body hbody
    rw [quoteOf_quoteMessage] at hbody
    obtain rfl := Option.some.inj hbody
    exact parse_cornTick
  simp only [firstDelivery, List.forall_mem_cons, List.not_mem_nil, false_implies, implies_true,
    and_true]
  exact ⟨trivial, hquote, trivial, trivial, trivial, trivial, trivial⟩

theorem order_of_first_delivery :
    ∃ final, run (step Platform.exact 2) initial firstDelivery = .ok final ∧
      final.departed.map Departure.item ++ final.tickList = final.accepted ∧
      (final.taken = final.finished ∨ ∃ itFront, final.taken = final.finished ++ [itFront]) ∧
      (∀ entry ∈ final.pushed, Belongs Platform.exact entry) ∧
      final.pushed.map Prod.snd = final.popped ++ final.resQue ∧
      (∀ earlier later middle, firstDelivery = earlier ++ later →
        run (step Platform.exact 2) initial earlier = .ok middle →
        ∀ connection ∈ middle.checkConns, ∃ more, final.popped = middle.popped ++ more ∧
          final.due connection = middle.due connection ++ more) ∧
      ∃ rest done, run (step Platform.exact 2) final rest = .ok done ∧
        done.taken = final.taken ∧ done.finished = done.taken ∧ done.popped = final.popped ∧
        ∀ connection ∈ final.checkConns, done.sentTo connection = final.due connection :=
  order_and_completeness Platform.exact 2 firstDelivery carriesTick_firstDelivery

end TradeServers.QuoteClient
