import TradeServers.QuoteClient.Delivery

/-!
# The connections that results are sent to

A connection that sends the login message is inserted into `checkConns_`, and `onConnection` only
erases it from `connections_` when it goes down. `loopSend` therefore sends to live subscribers only
as long as no connection in `checkConns_` goes down (`sends_to_live_subscribers`).
-/

set_option autoImplicit false
set_option relaxedAutoImplicit false

namespace TradeServers.QuoteClient

open Execution

section Subscribers

variable {Double : Type} {platform : Platform Double} {workers : ℕ} {state next : State Double}
  {events earlier : List Event} {event : Event} {connection : ℕ}

/-- The connection sent the login message, and has not gone down since. -/
def LoggedIn (connection : ℕ) (events : List Event) : Prop :=
  ∃ before message after, events = before ++ .message connection message :: after ∧
    IsLogin message ∧ .connection connection false ∉ after

/-- Every time that `loopSend` sends to a connection in a run, the connection is logged in. -/
def SendsToLive (platform : Platform Double) (workers : ℕ) (events : List Event) : Prop :=
  ∀ earlier later middle res connection, events = earlier ++ .sendNext :: later →
    run (step platform workers) initial earlier = .ok middle →
    middle.sender = .sending res (connection : ℕ) → LoggedIn connection earlier

/-- The connection that goes down is not in `checkConns_`. -/
def KeepsSubscribers (state : State Double) : Event → Prop
  | .connection connection false => connection ∉ state.checkConns
  | _ => True

/-- A login stays valid until its connection goes down. -/
theorem LoggedIn.concat (hlogged : LoggedIn connection earlier)
    (hevent : event ≠ .connection connection false) :
    LoggedIn connection (earlier ++ [event]) := by
  obtain ⟨before, message, after, rfl, hlogin, hup⟩ := hlogged
  refine ⟨before, message, after ++ [event], ?_, hlogin, ?_⟩
  · rw [List.append_assoc, List.cons_append]
  · rw [List.mem_append, List.mem_singleton]
    rintro (hdown | hdown)
    · exact hup hdown
    · exact hevent hdown.symm

/-- What a run keeps as long as no connection in `checkConns_` goes down. -/
structure Live (earlier : List Event) (state : State Double) : Prop where
  logged : ∀ connection ∈ state.checkConns, LoggedIn connection earlier
  sending : ∀ res connection, state.sender = .sending res (connection : ℕ) →
    connection ∈ state.checkConns

/-- The connection that the iterator points to next is in `checkConns_`. -/
theorem mem_of_following {current : ℕ} (hnext : state.following current = connection) :
    connection ∈ state.checkConns :=
  (Finset.mem_filter.mp (Finset.mem_of_min hnext)).1

/-- An event that leaves `checkConns_` alone, and the iterator at one of its connections. -/
theorem Live.move (hlive : Live earlier state) (hguard : KeepsSubscribers state event)
    (hconns : next.checkConns = state.checkConns)
    (hsending : ∀ res connection, next.sender = .sending res (connection : ℕ) →
      connection ∈ state.checkConns) : Live (earlier ++ [event]) next where
  logged := by
    intro connection hmem
    rw [hconns] at hmem
    refine (hlive.logged connection hmem).concat ?_
    rintro rfl
    exact hguard hmem
  sending := by
    intro res connection hsender
    rw [hconns]
    exact hsending res connection hsender

/-- An event that leaves `checkConns_` and the sender alone. -/
theorem Live.frame (hlive : Live earlier state) (hguard : KeepsSubscribers state event)
    (hconns : next.checkConns = state.checkConns) (hsender : next.sender = state.sender) :
    Live (earlier ++ [event]) next :=
  hlive.move hguard hconns fun res connection hsending ↦
    hlive.sending res connection (hsender.symm.trans hsending)

/-- A login inserts its connection. -/
theorem Live.login (hlive : Live earlier state) {message : Bytes} (hlogin : IsLogin message) :
    Live (earlier ++ [.message connection message])
      { state with checkConns := insert connection state.checkConns } where
  logged := by
    intro other hother
    rcases Finset.mem_insert.mp hother with rfl | hmem
    · exact ⟨earlier, message, [], rfl, hlogin, List.not_mem_nil⟩
    · exact (hlive.logged other hmem).concat nofun
  sending := fun res other hsender ↦ Finset.mem_insert_of_mem (hlive.sending res other hsender)

theorem live_of_move (hlive : Live earlier state) (hguard : KeepsSubscribers state event)
    (hmove : Move platform workers state event next) : Live (earlier ++ [event]) next := by
  cases hmove with
  | quote feed message body =>
    obtain ⟨_, _, _, _, hoffer⟩ := offer_frame state feed body
    rw [hoffer]
    exact hlive.frame hguard rfl rfl
  | popResult res rest =>
    refine hlive.move hguard rfl fun other connection hsender ↦ ?_
    exact Finset.mem_of_min (Sender.sending.inj hsender).2
  | send res current =>
    refine hlive.move hguard rfl fun other connection hsender ↦ ?_
    exact mem_of_following (Sender.sending.inj hsender).2
  | finish res => exact hlive.move hguard rfl nofun
  | login connection message hlogin => exact hlive.login hlogin
  | _ => exact hlive.frame hguard rfl rfl

/-- As long as no connection in `checkConns_` goes down, `loopSend` sends to live subscribers only.
A connection that goes down while it is in the set stays there, and every result that is taken
later is sent to it as well. -/
theorem sends_to_live_subscribers (platform : Platform Double) (workers : ℕ) (events : List Event) :
    (Guarded (step platform workers) KeepsSubscribers initial events →
      SendsToLive platform workers events) ∧
    ∀ earlier later middle connection final,
      events = earlier ++ .connection connection false :: later →
      run (step platform workers) initial earlier = .ok middle →
      connection ∈ middle.checkConns → run (step platform workers) initial events = .ok final →
      connection ∈ final.checkConns ∧ ∃ more, final.popped = middle.popped ++ more ∧
        final.due connection = middle.due connection ++ more := by
  constructor
  · rintro hguarded earlier later middle res connection rfl hrun hsender
    have hstep : ∀ earlier (state : State Double) event next, Live earlier state →
        KeepsSubscribers state event → step platform workers state event = .ok next →
        Live (earlier ++ [event]) next := by
      intro earlier state event next hlive hguard hnext
      rcases move_of_step platform hnext with rfl | hmove
      · exact hlive.frame hguard rfl rfl
      · exact live_of_move hlive hguard hmove
    have hstart : Live [] (initial : State Double) :=
      ⟨fun other hother ↦ absurd hother (Finset.notMem_empty other), nofun⟩
    have hlive := Guarded.run_history hstep hstart (guarded_append_iff.mp hguarded).1 hrun
    exact hlive.logged connection (hlive.sending res connection hsender)
  · rintro earlier later middle connection final rfl hrun hmem hfinal
    obtain ⟨reached, hreached, hlater⟩ := run_append_eq_ok_iff.mp hfinal
    obtain rfl := Except.ok.inj (hrun.symm.trans hreached)
    exact due_of_run hmem hlater

end Subscribers

/-- No connection goes down in the first delivery. -/
theorem keepsSubscribers_first_delivery :
    Guarded (step Platform.exact 2) KeepsSubscribers initial firstDelivery :=
  guarded_of_forall (by simp [firstDelivery, KeepsSubscribers]) _

theorem sends_to_live_first_delivery : SendsToLive Platform.exact 2 firstDelivery :=
  (sends_to_live_subscribers Platform.exact 2 firstDelivery).1 keepsSubscribers_first_delivery

/-- A connection logs in and goes down; then a tick arrives, and its result is sent. -/
def deliveryAfterDown : List Event :=
  [.message 7 loginMessage, .connection 7 false, .quote .client1 (quoteMessage cornTick),
    .takeTick 0, .updateWindows 0, .pushResult 0, .popResult, .sendNext]

theorem not_loggedIn_after_down : ¬ LoggedIn 7 (deliveryAfterDown.take 7) := by
  rintro ⟨before, message, after, hevents, -, hup⟩
  cases before with
  | nil =>
    obtain ⟨-, hafter⟩ := List.cons_eq_cons.mp hevents
    exact hup (hafter ▸ List.mem_cons_self)
  | cons event before =>
    obtain ⟨-, hlater⟩ := List.cons_eq_cons.mp hevents
    have hmem : Event.message 7 message ∈ before ++ Event.message 7 message :: after :=
      List.mem_append_right before List.mem_cons_self
    rw [show before ++ _ = _ from hlater.symm] at hmem
    simp at hmem

/-- The result is sent to a connection that has gone down. -/
theorem sends_to_closed_connection : ¬ SendsToLive Platform.exact 2 deliveryAfterDown := by
  intro hlive
  have hsender : (run (step Platform.exact 2) initial (deliveryAfterDown.take 7)).toOption.map
      State.sender = some (.sending ⟨ascii "DCE", ascii "c", ascii "s2009",
        ascii "c|s2009|DCE|0|0|0"⟩ (7 : ℕ)) := by
    decide +kernel
  obtain ⟨middle, hrun, hsending⟩ := exists_ok_of_toOption hsender
  exact not_loggedIn_after_down (hlive _ [] middle _ 7 rfl hrun hsending)

end TradeServers.QuoteClient
