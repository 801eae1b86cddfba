import TradeServers.LogTimeServer.Serving

/-!
# A log time server with enough connections

With as many initial connections as threads, and as long as no connection dies, a thread that comes
to a message finds the connection that it needs in the queue.

- `never_starved`: no message waits for a connection or goes without.
- `comes_to_rest`: the server can always finish what it has begun.
-/

set_option autoImplicit false
set_option relaxedAutoImplicit false

namespace TradeServers.LogTimeServer.Serving

open Execution Workers Linearization
open Requests (Stage)

variable {σ : Type} {n : ℕ}

/-! ### Enough connections -/

section Supply

variable {server : MysqlServer σ} {db : σ} {config : Pool.Config} {state next : State n σ}
  {thread : Fin n} {dead : ℕ → Bool}

/-- No connection is dead when a thread or the scanner looks at it. -/
def Lives (state : State n σ) : Move n → Prop
  | .enter _ dead | .resume _ dead | .timeout _ dead | .scan dead _ =>
    Sizing.Alive dead state.connections.pool
  | _ => True

/-- A message was dealt with by a thread that had a connection if it needed one. -/
def Supplied (server : MysqlServer σ) (effect : Effect ℕ Task Action) : Prop :=
  ∃ accepted before after,
    dealMessage server ⟨true, accepted⟩ before effect.operation.msg = .ok (after, effect.result)

/-- The pool keeps its initial connections; nobody waits for one, and nobody went without. -/
structure Enough (server : MysqlServer σ) (config : Pool.Config) (state : State n σ) : Prop where
  kept : config.initCount ≤ state.connections.pool.currentCount
  waiters : state.connections.waiters = []
  failed : state.connections.failed = []
  supplied : ∀ effect ∈ state.requests.order, Supplied server effect

theorem Sound.length_borrowed (hsound : Sound server db state) :
    state.connections.pool.borrowed.length = (Holders.held state.holding).card := by
  rw [← hsound.held, Multiset.coe_card, borrowedIds, List.length_map]

theorem Sound.sized (hsound : Sound server db state) (henough : Enough server config state) :
    Sizing.Sized config n state.connections.pool where
  accounted := hsound.accounted
  kept := henough.kept
  borrowers := by
    rw [hsound.length_borrowed, Holders.card_held]
    exact (Finset.card_le_univ _).trans_eq (Fintype.card_fin n)

theorem Sound.borrowed_lt (hsound : Sound server db state) (hfree : state.holding thread = none) :
    state.connections.pool.borrowed.length < n := by
  rw [hsound.length_borrowed]
  exact (Holders.card_held_lt hfree).trans_eq (Fintype.card_fin n)

/-- With a connection, `dealMessage` comes to its statement or has decided what to do. -/
theorem exists_prepare (requests : Requests.State n σ) (thread : Fin n) :
    ∃ next, requests.prepare thread true = .ok next := by
  have hok : ∀ msg, ∃ result, Requests.prepare true msg = .ok result := by
    intro msg
    unfold Requests.prepare
    simp only [if_true]
    split_ifs
    all_goals exact ⟨_, rfl⟩
  unfold Requests.State.prepare
  split
  · rename_i entry _ _
    obtain ⟨result, hresult⟩ := hok entry.2.msg
    rw [hresult]
    cases result <;> exact ⟨_, rfl⟩
  · exact ⟨_, rfl⟩

/-- A message that is prepared with a connection is dealt with as if it were alone. -/
theorem supplied_of_prepare {requests prepared : Requests.State n σ}
    (hsupplied : ∀ effect ∈ requests.order, Supplied server effect) {entry : ℕ × Task}
    (hplace : place requests thread = (some entry, .begun))
    (hprepare : requests.prepare thread true = .ok prepared) :
    ∀ effect ∈ prepared.order, Supplied server effect := by
  rcases prepare_of_begun hplace hprepare with ⟨-, horder, -⟩ | ⟨action, hdecided, horder, -⟩
  · exact horder ▸ hsupplied
  · rw [horder]
    refine List.forall_mem_append.mpr ⟨hsupplied, List.forall_mem_singleton.mpr ?_⟩
    refine ⟨true, requests.db, requests.db, ?_⟩
    rw [Requests.dealMessage_eq, hdecided]

/-- A call that finds a connection in the queue gets it. -/
theorem call_of_queue {before : Wakeups.State} {lent : Pool.State} (caller : ℕ)
    (hwaiters : before.waiters = []) (hqueue : before.pool.queue ≠ [])
    (hget : Pool.getOneConnect dead before.pool = .ok lent) :
    ∃ after, Wakeups.step config before (.call caller dead) = .ok after ∧
      returned before after = some true ∧ after.pool = lent ∧ after.waiters = [] ∧
      after.failed = before.failed := by
  have htake : before.take caller dead =
      .ok ({ before with pool := lent, served := before.served ++ [caller] }.leave
        caller).notifyAll := by
    unfold Wakeups.State.take
    rw [hget]
  refine ⟨_, ?_, (take_spec hqueue htake).1, rfl, ?_, rfl⟩
  · show before.call caller dead = _
    unfold Wakeups.State.call Wakeups.State.look
    rw [if_neg (by simp [hwaiters]), if_neg hqueue, htake]
  · simp [Wakeups.State.notifyAll, Wakeups.State.leave, hwaiters]

/-- The thread goes on with the connection. -/
theorem getOneConnect_of_returned {action : Wakeups.Action} {after : Wakeups.State}
    {prepared : Requests.State n σ}
    (hstep : Wakeups.step config state.connections action = .ok after)
    (hreturned : returned state.connections after = some true)
    (hprepare : state.requests.prepare thread true = .ok prepared) :
    state.getOneConnect config thread action = .ok ⟨prepared, after,
      Function.update state.holding thread
        (after.pool.borrowed.getLast?.map Pool.Connection.id)⟩ := by
  unfold State.getOneConnect State.prepare
  rw [hstep]
  dsimp only
  rw [hreturned]
  dsimp only
  rw [hprepare]

/-- A thread that comes to a message finds the connection that it needs. -/
theorem enter_of_begun {entry : ℕ × Task} (hinitial : (n : ℤ) ≤ config.initCount)
    (hsound : Sound server db state) (henough : Enough server config state)
    (halive : Sizing.Alive dead state.connections.pool)
    (hplace : place state.requests thread = (some entry, .begun)) :
    ∃ next, state.enter config thread dead = .ok next ∧ Enough server config next ∧
      state.requests.prepare thread true = .ok next.requests ∧
      ∀ other, other ≠ thread → next.holding other = state.holding other := by
  obtain ⟨prepared, hprepare⟩ := exists_prepare state.requests thread
  have hsupplied := supplied_of_prepare henough.supplied hplace hprepare
  unfold State.enter
  rw [hplace]
  dsimp only
  split_ifs with hcalls
  · have hsized := hsound.sized henough
    have hfree := hsound.borrowed_lt (hsound.free hplace)
    obtain ⟨lent, hlent, hkept⟩ := Sizing.step_sized hinitial hsized
      (show Sizing.Served n state.connections.pool (.borrow dead) from ⟨hfree, halive⟩)
    obtain ⟨after, hcall, hreturned, hpool, hwaiters, hfailed⟩ := call_of_queue (thread : ℕ)
      henough.waiters (hsized.queue_ne_nil hinitial hfree) hlent
    exact ⟨_, getOneConnect_of_returned hcall hreturned hprepare,
      ⟨hpool ▸ hkept.kept, hwaiters, hfailed.trans henough.failed, hsupplied⟩, hprepare,
      fun other hne ↦ Function.update_of_ne hne _ _⟩
  · refine ⟨{ state with requests := prepared }, ?_, ⟨henough.kept, henough.waiters,
      henough.failed, hsupplied⟩, hprepare, fun _ _ ↦ rfl⟩
    unfold State.prepare
    rw [hprepare]

theorem enter_enough (hinitial : (n : ℤ) ≤ config.initCount) (hsound : Sound server db state)
    (henough : Enough server config state) (halive : Sizing.Alive dead state.connections.pool) :
    ∃ next, state.enter config thread dead = .ok next ∧ Enough server config next := by
  by_cases hbegun : ∃ entry, place state.requests thread = (some entry, .begun)
  · obtain ⟨entry, hplace⟩ := hbegun
    obtain ⟨next, henter, hnext, -⟩ := enter_of_begun hinitial hsound henough halive hplace
    exact ⟨next, henter, hnext⟩
  · refine ⟨state, ?_, henough⟩
    unfold State.enter
    split
    · rename_i entry hplace
      exact (hbegun ⟨entry, hplace⟩).elim
    · rfl

/-- Nobody waits who could be woken or whose time could be up. -/
theorem waiting_enough {action : Wakeups.Action} (henough : Enough server config state)
    (hstep : Wakeups.step config state.connections action = .ok state.connections) :
    ∃ next, state.getOneConnect config thread action = .ok next ∧ Enough server config next := by
  refine ⟨state, ?_, henough⟩
  have hnothing : returned state.connections state.connections = none := by simp [returned]
  unfold State.getOneConnect
  rw [hstep]
  dsimp only
  rw [hnothing]

/-- A statement is executed for a message that needs a connection. -/
theorem query_enough (hsound : Sound server db state) (henough : Enough server config state)
    (accepted : Bool) : Enough server config
      { state with requests := state.requests.query server thread accepted } := by
  refine ⟨henough.kept, henough.waiters, henough.failed, ?_⟩
  rcases query_cases server state.requests thread accepted with hsame | ⟨entry, hplace⟩
  · exact hsame.symm ▸ henough.supplied
  · have hfits := hsound.requests.fits thread
    obtain ⟨htask, hstage⟩ := Prod.mk.inj hplace
    rw [htask, hstage] at hfits
    obtain ⟨-, connected, hprepare⟩ := hfits
    have hconnected : connected = true := by
      cases connected
      · exact (prepare_false_ne _ hprepare).elim
      · rfl
    rw [hconnected] at hprepare
    rw [query_of_connected server accepted hplace]
    refine List.forall_mem_append.mpr ⟨henough.supplied, List.forall_mem_singleton.mpr ?_⟩
    refine ⟨accepted, state.requests.db,
      (Requests.query server accepted state.requests.db entry.2.msg).1, ?_⟩
    rw [Requests.dealMessage_eq, hprepare]

/-- A step of the pool that succeeds, makes nobody wait and leaves the initial connections. -/
theorem connect_enough {action : Wakeups.Action} {after : Wakeups.State}
    (henough : Enough server config state)
    (hstep : Wakeups.step config state.connections action = .ok after)
    (hkept : config.initCount ≤ after.pool.currentCount) (hwaiters : after.waiters = [])
    (hfailed : after.failed = state.connections.failed) :
    ∃ next, state.connect config action = .ok next ∧ Enough server config next := by
  refine ⟨{ state with connections := after }, ?_, hkept, hwaiters,
    hfailed.trans henough.failed, henough.supplied⟩
  unfold State.connect
  rw [hstep]

theorem step_enough {move : Move n} (hinitial : (n : ℤ) ≤ config.initCount)
    (hsound : Sound server db state) (henough : Enough server config state)
    (hlives : Lives state move) :
    ∃ next, step server config state move = .ok next ∧ Enough server config next := by
  have hsized := hsound.sized henough
  obtain ⟨hkept, hwaiters, hfailed, hsupplied⟩ := id henough
  cases move with
  | onStringMessage task chosen => exact ⟨_, rfl, hkept, hwaiters, hfailed, hsupplied⟩
  | enter thread dead => exact enter_enough hinitial hsound henough hlives
  | resume thread dead =>
    refine waiting_enough henough ?_
    show state.connections.resume thread dead = _
    exact if_neg (by simp [hwaiters])
  | timeout thread dead =>
    refine waiting_enough henough ?_
    show state.connections.timeout thread dead = _
    exact if_neg (by simp [hwaiters])
  | query thread accepted => exact ⟨_, rfl, query_enough hsound henough accepted⟩
  | send thread =>
    refine ⟨_, rfl, hkept, hwaiters, hfailed, ?_⟩
    show ∀ effect ∈ (state.requests.send thread).order, Supplied server effect
    rcases send_cases state.requests thread with hsame | ⟨entry, action, hplace⟩
    · rw [hsame]
      exact hsupplied
    · rw [send_of_decided hplace]
      exact hsupplied
  | release thread now =>
    refine ⟨_, rfl, ?_⟩
    rcases release_cases state thread now with hsame | ⟨id, -, -, hrelease⟩
    · rw [hsame]
      exact henough
    · rw [hrelease]
      exact ⟨(Sizing.giveBack_sizes _ now state.connections.pool).1.symm ▸ hkept, hwaiters,
        hfailed, hsupplied⟩
  | advance thread =>
    refine ⟨_, rfl, ?_⟩
    unfold State.advance
    split
    · refine ⟨hkept, hwaiters, hfailed, ?_⟩
      show ∀ effect ∈ (state.requests.advance thread).order, Supplied server effect
      unfold Requests.State.advance
      split <;> exact hsupplied
    · exact henough
  | wake thread => exact ⟨_, rfl, hkept, hwaiters, hfailed, hsupplied⟩
  | stop => exact ⟨_, rfl, hkept, hwaiters, hfailed, hsupplied⟩
  | produce now =>
    obtain ⟨-, hnames⟩ := produce_sizes config state.connections now
    rw [hwaiters] at hnames
    have hproduce : Wakeups.step config state.connections (.produce now) =
        .ok (state.connections.produce config now) := rfl
    refine connect_enough henough hproduce ?_ (List.map_eq_nil_iff.mp hnames) ?_
    · unfold Wakeups.State.produce
      split_ifs
      · exact hkept
      · exact hkept.trans (Sizing.produceConnectionTask_sizes config now state.connections.pool).1
      · exact hkept
    · unfold Wakeups.State.produce
      split_ifs <;> rfl
  | scan dead clock =>
    obtain ⟨scanned, hscan, hleft⟩ := Sizing.step_sized hinitial hsized
      (show Sizing.Served n state.connections.pool (.scan dead clock) from hlives)
    have hpassed : Wakeups.step config state.connections (.scan dead clock) =
        .ok { state.connections with pool := scanned } := by
      unfold Pool.step at hscan
      unfold Wakeups.step
      dsimp only at hscan ⊢
      rw [hscan]
    exact connect_enough henough hpassed hleft.kept hwaiters rfl
  | wakeProducer =>
    have hwoken : Wakeups.step config state.connections .wakeProducer =
        .ok { state.connections with asleep := false } := rfl
    exact connect_enough henough hwoken hkept hwaiters rfl
  | wakeCaller thread =>
    have hwoken : Wakeups.step config state.connections (.wakeCaller thread) =
        .ok { state.connections with waiters := state.connections.waiters.map fun waiter ↦
          if waiter.1 = (thread : ℕ) then ((thread : ℕ), true) else waiter } := rfl
    refine connect_enough henough hwoken hkept ?_ rfl
    rw [hwaiters]
    rfl

theorem construct_kept {now : ℕ → ℤ} {pool : Pool.State}
    (hconstruct : Pool.construct config (fun _ ↦ true) now = some pool) :
    config.initCount ≤ pool.currentCount := by
  obtain ⟨hcount, -⟩ := Sizing.initial_of_connected now config.initCount.toNat
  unfold Pool.construct at hconstruct
  dsimp only at hconstruct
  split_ifs at hconstruct
  cases hconstruct
  rw [hcount]
  omega

theorem reached_enough {now : ℕ → ℤ} {pool : Pool.State} {moves : List (Move n)} (hthreads : 0 < n)
    (hinitial : (n : ℤ) ≤ config.initCount)
    (hconstruct : Pool.construct config (fun _ ↦ true) now = some pool)
    (hlives : Guarded (step server config) Lives (start n db pool) moves) :
    ∃ final, run (step server config) (start n db pool) moves = .ok final ∧
      Sound server db final ∧ Enough server config final := by
  have hstart : Sound server db (start n db pool) ∧ Enough server config (start n db pool) := by
    refine ⟨start_sound n server db (Pool.construct_sound hconstruct).toAccounted
      (construct_borrowed hconstruct), construct_kept hconstruct, rfl, rfl, ?_⟩
    exact fun effect heffect ↦ (List.not_mem_nil heffect).elim
  have hsteps : ∀ (state : State n σ) move, Sound server db state ∧ Enough server config state →
      Lives state move → ∃ next, step server config state move = .ok next ∧
        Sound server db next ∧ Enough server config next := by
    intro state move hgood hmove
    obtain ⟨next, hstep, hnext⟩ := step_enough hinitial hgood.1 hgood.2 hmove
    exact ⟨next, hstep, step_sound hthreads hgood.1 hstep, hnext⟩
  exact hlives.run_isOk hsteps hstart

/-- With as many initial connections as threads, and as long as no connection dies, no step goes
wrong, nobody waits for a connection or goes without, and every message is answered like one that
comes alone and finds a connection. -/
theorem never_starved {now : ℕ → ℤ} {pool : Pool.State} {moves : List (Move n)} (hthreads : 0 < n)
    (hinitial : (n : ℤ) ≤ config.initCount)
    (hconstruct : Pool.construct config (fun _ ↦ true) now = some pool)
    (hlives : Guarded (step server config) Lives (start n db pool) moves) :
    ∃ final, run (step server config) (start n db pool) moves = .ok final ∧
      final.connections.waiters = [] ∧ final.connections.failed = [] ∧
      ∀ id task action, .invoke id task ∈ final.requests.history →
        .answer id action ∈ final.requests.history → ∃ accepted before after,
          dealMessage server ⟨true, accepted⟩ before task.msg = .ok (after, action) := by
  obtain ⟨final, hrun, hsound, henough⟩ := reached_enough hthreads hinitial hconstruct hlives
  refine ⟨final, hrun, henough.waiters, henough.failed, fun id task action hinvoked hanswer ↦ ?_⟩
  have hrecorded := hsound.requests.recorded
  obtain ⟨effect, heffect, rfl, rfl⟩ := hrecorded.linearizes.explained id action hanswer
  obtain rfl := hrecorded.eq_of_invoke (hrecorded.linearizes.invoked effect heffect) hinvoked
  exact henough.supplied effect heffect

theorem lives_arrives (server : MysqlServer σ) (db : σ) (task : Task) :
    Guarded (step server Pool.smallConfig) Lives (start 1 db Pool.smallPool) (arrives 0 task) :=
  guarded_of_forall (by simp [arrives, Lives, Sizing.Alive]) _

theorem lives_settles (server : MysqlServer σ) (state : State 1 σ) :
    Guarded (step server Pool.smallConfig) Lives state (settles 0) :=
  guarded_of_forall (by simp [settles, Lives]) _

/-- One thread, one connection and one message, which is answered. -/
theorem never_starved_annual : ∃ (final : State 1 (DocumentKey → Option Bytes)) (action : Action)
      (accepted : Bool) (before after : DocumentKey → Option Bytes),
    run (step .ofTable Pool.smallConfig) (start 1 (fun _ ↦ none) Pool.smallPool)
      (arrives 0 (annualUpload [1]) ++ settles 0) = .ok final ∧
    final.connections.waiters = [] ∧ final.connections.failed = [] ∧
    .answer 0 action ∈ final.requests.history ∧
    dealMessage .ofTable ⟨true, accepted⟩ before (annualUpload [1]).msg = .ok (after, action) := by
  have hlives := guarded_append_iff.mpr
    ⟨lives_arrives .ofTable (fun _ ↦ none) (annualUpload [1]),
      fun middle _ ↦ lives_settles .ofTable middle⟩
  obtain ⟨final, hrun, hwaiters, hfailed, hanswers⟩ :=
    never_starved Nat.one_pos (by decide) Pool.construct_smallPool hlives
  obtain rfl := Except.ok.inj (hrun.symm.trans (run_settles .ofTable (fun _ ↦ none) calls_annual))
  have hanswered := List.mem_cons_of_mem (Event.invoke 0 (annualUpload [1])) <|
    List.mem_singleton_self (Event.answer 0
      (Requests.query .ofTable true (fun _ ↦ none) (annualUpload [1]).msg).2)
  obtain ⟨accepted, before, after, hdeal⟩ := hanswers 0 _ _ List.mem_cons_self hanswered
  exact ⟨_, _, accepted, before, after, hrun, hwaiters, hfailed, hanswered, hdeal⟩

end Supply

/-! ### Coming to rest -/

section Rest

variable {server : MysqlServer σ} {db : σ} {config : Pool.Config} {state next : State n σ}
  {thread : Fin n} {past : List (Event ℕ Task Action)}

/-- The steps that the threads take on their own, while all connections live. -/
def Works : Move n → Prop
  | .enter _ dead => ∀ id, dead id = false
  | .query _ _ | .send _ | .release _ _ | .advance _ => True
  | _ => False

/-- How many steps a thread takes at most until it has left `dealMessage`. -/
def stepsLeft : Stage → Option ℕ → ℕ
  | .begun, _ => 4
  | .connected, _ => 3
  | .decided _, _ => 2
  | .ended, some _ => 1
  | .ended, none => 0

/-- What the threads have left to do, outside of `dealMessage` and inside of it. -/
def left (state : State n σ) : ℕ :=
  5 * state.requests.pool.potential +
    ∑ thread, stepsLeft (state.requests.stages thread) (state.holding thread)

/-- The server runs, and its history has the events of the past. -/
structure Going (past : List (Event ℕ Task Action)) (requests : Requests.State n σ) : Prop where
  running : requests.pool.running = true
  kept : ∀ event ∈ past, event ∈ requests.history

theorem stepsLeft_le (stage : Stage) (holding : Option ℕ) : stepsLeft stage holding ≤ 4 := by
  cases stage <;> cases holding <;> simp [stepsLeft]

/-- What a thread that moves changes in the steps that are left. -/
theorem sum_stepsLeft
    (hstages : ∀ other, other ≠ thread →
      next.requests.stages other = state.requests.stages other)
    (hholding : ∀ other, other ≠ thread → next.holding other = state.holding other) :
    ∑ other, stepsLeft (next.requests.stages other) (next.holding other) +
        stepsLeft (state.requests.stages thread) (state.holding thread) =
      ∑ other, stepsLeft (state.requests.stages other) (state.holding other) +
        stepsLeft (next.requests.stages thread) (next.holding thread) := by
  have hmoved : (fun other ↦ (next.requests.stages other, next.holding other)) =
      Function.update (fun other ↦ (state.requests.stages other, state.holding other)) thread
        (next.requests.stages thread, next.holding thread) := by
    funext other
    by_cases hsame : other = thread
    · rw [hsame, Function.update_self]
    · rw [Function.update_of_ne hsame, hstages other hsame, hholding other hsame]
  have hsum := sum_update_add (fun found : Stage × Option ℕ ↦ stepsLeft found.1 found.2)
    (fun other ↦ (state.requests.stages other, state.holding other)) thread
    (next.requests.stages thread, next.holding thread)
  rw [← hmoved] at hsum
  exact hsum

theorem left_lt_of_thread (hpool : next.requests.pool = state.requests.pool)
    (hstages : ∀ other, other ≠ thread →
      next.requests.stages other = state.requests.stages other)
    (hholding : ∀ other, other ≠ thread → next.holding other = state.holding other)
    (hless : stepsLeft (next.requests.stages thread) (next.holding thread) <
      stepsLeft (state.requests.stages thread) (state.holding thread)) :
    left next < left state := by
  have hsum := sum_stepsLeft hstages hholding
  unfold left
  rw [hpool]
  omega

theorem left_lt_of_pool
    (hpool : next.requests.pool.potential + 1 ≤ state.requests.pool.potential)
    (hstages : ∀ other, other ≠ thread →
      next.requests.stages other = state.requests.stages other)
    (hholding : ∀ other, other ≠ thread → next.holding other = state.holding other) :
    left next < left state := by
  have hsum := sum_stepsLeft hstages hholding
  have hle := stepsLeft_le (next.requests.stages thread) (next.holding thread)
  unfold left
  omega

theorem prepare_kept {requests prepared : Requests.State n σ} {connected : Bool}
    (hprepare : requests.prepare thread connected = .ok prepared) :
    prepared.pool = requests.pool ∧ prepared.history = requests.history := by
  unfold Requests.State.prepare at hprepare
  split at hprepare
  · split at hprepare
    · cases hprepare
    · cases hprepare
      exact ⟨rfl, rfl⟩
    · cases hprepare
      exact ⟨rfl, rfl⟩
  · cases hprepare
    exact ⟨rfl, rfl⟩

/-- A thread at the beginning of a message comes to its statement, or has decided what to do. -/
theorem enter_less {entry : ℕ × Task} (hplace : place state.requests thread = (some entry, .begun))
    (hgoing : Going past state.requests)
    (hprepare : state.requests.prepare thread true = .ok next.requests)
    (hholding : ∀ other, other ≠ thread → next.holding other = state.holding other) :
    Going past next.requests ∧ left next < left state := by
  obtain ⟨hpool, hhistory⟩ := prepare_kept hprepare
  have hless (stage : Stage)
      (hplaces : place next.requests = Function.update (place state.requests) thread
        (some entry, stage))
      (hstage : stepsLeft stage (next.holding thread) < 4) : left next < left state := by
    obtain ⟨hthread, hothers⟩ := Function.eq_update_iff.mp hplaces
    refine left_lt_of_thread hpool (fun other hne ↦ (Prod.mk.inj (hothers other hne)).2) hholding ?_
    rw [(Prod.mk.inj hthread).2, (Prod.mk.inj hplace).2]
    exact hstage
  refine ⟨⟨hpool ▸ hgoing.running, hhistory ▸ hgoing.kept⟩, ?_⟩
  rcases prepare_of_begun hplace hprepare with ⟨-, -, hplaces⟩ | ⟨action, -, -, hplaces⟩
  · exact hless .connected hplaces (by simp [stepsLeft])
  · exact hless (.decided action) hplaces (by simp [stepsLeft])

theorem query_less {entry : ℕ × Task} (accepted : Bool)
    (hplace : place state.requests thread = (some entry, .connected))
    (hgoing : Going past state.requests) :
    Going past (state.requests.query server thread accepted) ∧
      left { state with requests := state.requests.query server thread accepted } <
        left state := by
  rw [query_of_connected server accepted hplace]
  refine ⟨⟨hgoing.running, hgoing.kept⟩, ?_⟩
  refine left_lt_of_thread rfl (fun other hne ↦ Function.update_of_ne hne _ _) (fun _ _ ↦ rfl) ?_
  show stepsLeft (Function.update state.requests.stages thread _ thread) _ < _
  rw [Function.update_self, (Prod.mk.inj hplace).2]
  exact Nat.lt_succ_self 2

theorem send_less {entry : ℕ × Task} {action : Action}
    (hplace : place state.requests thread = (some entry, .decided action))
    (hgoing : Going past state.requests) :
    Going past (state.requests.send thread) ∧
      left { state with requests := state.requests.send thread } < left state := by
  have hkept : ∀ event ∈ past, event ∈ state.requests.history ++ [.answer entry.1 action] :=
    fun event hevent ↦ List.mem_append_left _ (hgoing.kept event hevent)
  rw [send_of_decided hplace]
  refine ⟨⟨hgoing.running, hkept⟩, ?_⟩
  refine left_lt_of_thread rfl (fun other hne ↦ Function.update_of_ne hne _ _) (fun _ _ ↦ rfl) ?_
  show stepsLeft (Function.update state.requests.stages thread _ thread) (state.holding thread) < _
  rw [Function.update_self, (Prod.mk.inj hplace).2]
  cases state.holding thread <;> simp [stepsLeft]

theorem release_less {id : ℕ} (time : ℤ) (hholds : state.holding thread = some id)
    (hstage : state.requests.stages thread = .ended) (hgoing : Going past state.requests) :
    Going past (state.release thread time).requests ∧
      left (state.release thread time) < left state := by
  have hrelease : state.release thread time = { state with
      connections := State.giveBack state.connections id time
      holding := Function.update state.holding thread none } := by
    unfold State.release
    rw [hholds, hstage]
  rw [hrelease]
  refine ⟨hgoing, left_lt_of_thread rfl (fun _ _ ↦ rfl)
    (fun other hne ↦ Function.update_of_ne hne _ _) ?_⟩
  show stepsLeft (state.requests.stages thread)
    (Function.update state.holding thread none thread) < _
  rw [Function.update_self, hholds, hstage]
  exact Nat.zero_lt_one

/-- Outside of `dealMessage` a thread that can go on does so. -/
theorem advance_less (hfree : state.holding thread = none)
    (houtside : (state.requests.pool.phases thread).task? = none ∨
      state.requests.stages thread = .ended)
    (hcan : state.requests.pool.CanStep thread) (hgoing : Going past state.requests) :
    Going past (state.advance thread).requests ∧ left (state.advance thread) < left state := by
  have hadvance : state.advance thread =
      { state with requests := state.requests.advance thread } := by
    unfold State.advance
    rw [hfree]
  have hadvanced : (state.requests.advance thread).pool = state.requests.pool.advance thread ∧
      (state.requests.advance thread).history = state.requests.history ∧
      ∀ other, other ≠ thread →
        (state.requests.advance thread).stages other = state.requests.stages other := by
    unfold Requests.State.advance
    split
    · exact ⟨rfl, rfl, fun _ _ ↦ rfl⟩
    · exact ⟨rfl, rfl, fun other hne ↦ Function.update_of_ne hne _ _⟩
    · rename_i htask hother
      rcases houtside with hnone | hended
      · rw [hnone] at htask
        cases htask
      · exact (hother hended).elim
  obtain ⟨hpool, hhistory, hstages⟩ := hadvanced
  rw [hadvance]
  refine ⟨⟨?_, hhistory ▸ hgoing.kept⟩, left_lt_of_pool ?_ hstages fun _ _ ↦ rfl⟩
  · rw [hpool, (ThreadPool.advance_kept state.requests.pool thread).2]
    exact hgoing.running
  · show (state.requests.advance thread).pool.potential + 1 ≤ _
    rw [hpool]
    exact ThreadPool.potential_advanced (ThreadPool.advance_of_canStep hcan)

/-- A step of a thread that leaves less to do succeeds. -/
theorem exists_work_of_less (hinitial : (n : ℤ) ≤ config.initCount)
    (hsound : Sound server db state) (henough : Enough server config state) {move : Move n}
    (hworks : Works move) (hless : ∀ next, step server config state move = .ok next →
      Going past next.requests ∧ left next < left state) :
    ∃ move next, Works move ∧ step server config state move = .ok next ∧
      Enough server config next ∧ Going past next.requests ∧ left next < left state := by
  have hlives : Lives state move := by
    cases move with
    | enter thread dead => exact fun connection _ ↦ hworks connection.id
    | query thread accepted | send thread | release thread time | advance thread => trivial
    | _ => exact hworks.elim
  obtain ⟨next, hstep, hnext⟩ := step_enough hinitial hsound henough hlives
  exact ⟨move, next, hworks, hstep, hnext, hless next hstep⟩

/-- A thread that can go on takes a step that leaves less to do. -/
theorem exists_work (hinitial : (n : ℤ) ≤ config.initCount) (hsound : Sound server db state)
    (henough : Enough server config state) (hgoing : Going past state.requests)
    (hcan : state.requests.pool.CanStep thread) :
    ∃ move next, Works move ∧ step server config state move = .ok next ∧
      Enough server config next ∧ Going past next.requests ∧ left next < left state := by
  have hplaced := hsound.placed thread
  generalize hplace : place state.requests thread = found at hplaced
  generalize hholding : state.holding thread = holding at hplaced
  cases hplaced with
  | idle =>
    refine exists_work_of_less hinitial hsound henough
      (show Works (.advance thread : Move n) from trivial) fun next hstep ↦ ?_
    cases hstep
    exact advance_less hholding (.inl (Prod.mk.inj hplace).1) hcan hgoing
  | begun entry =>
    refine exists_work_of_less hinitial hsound henough
      (show Works (.enter thread fun _ ↦ false : Move n) from fun _ ↦ rfl) fun next hstep ↦ ?_
    have halive : Sizing.Alive (fun _ ↦ false) state.connections.pool := fun _ _ ↦ rfl
    obtain ⟨after, henter, -, hprepare, hothers⟩ :=
      enter_of_begun hinitial hsound henough halive hplace
    obtain rfl : after = next := Except.ok.inj (henter.symm.trans hstep)
    exact enter_less hplace hgoing hprepare hothers
  | connected entry id =>
    refine exists_work_of_less hinitial hsound henough
      (show Works (.query thread true : Move n) from trivial) fun next hstep ↦ ?_
    cases hstep
    exact query_less true hplace hgoing
  | decided entry action =>
    refine exists_work_of_less hinitial hsound henough
      (show Works (.send thread : Move n) from trivial) fun next hstep ↦ ?_
    cases hstep
    exact send_less hplace hgoing
  | ended entry =>
    have hstage := (Prod.mk.inj hplace).2
    cases holding with
    | none =>
      refine exists_work_of_less hinitial hsound henough
        (show Works (.advance thread : Move n) from trivial) fun next hstep ↦ ?_
      cases hstep
      exact advance_less hholding (.inr hstage) hcan hgoing
    | some id =>
      refine exists_work_of_less hinitial hsound henough
        (show Works (.release thread 0 : Move n) from trivial) fun next hstep ↦ ?_
      cases hstep
      exact release_less 0 hholding hstage hgoing

/-- As long as no connection dies, the threads of a running server can bring it to rest from every
state that it reaches: all messages that have arrived are answered then, and all connections are
back. -/
theorem comes_to_rest {now : ℕ → ℤ} {pool : Pool.State} {moves : List (Move n)} (hthreads : 0 < n)
    (hinitial : (n : ℤ) ≤ config.initCount)
    (hconstruct : Pool.construct config (fun _ ↦ true) now = some pool)
    (hlives : Guarded (step server config) Lives (start n db pool) moves)
    (hrun : run (step server config) (start n db pool) moves = .ok state)
    (hrunning : state.requests.pool.running = true) :
    ∃ later final, (∀ move ∈ later, Works move) ∧
      run (step server config) state later = .ok final ∧
      (∀ id task, .invoke id task ∈ state.requests.history →
        ∃ action, .answer id action ∈ final.requests.history) ∧
      final.connections.pool.borrowed = [] := by
  obtain ⟨reached, hreached, hgood⟩ := reached_enough hthreads hinitial hconstruct hlives
  obtain rfl : reached = state := Except.ok.inj (hreached.symm.trans hrun)
  have hprogress : ∀ middle : State n σ,
      (Sound server db middle ∧ Enough server config middle) ∧
        Going reached.requests.history middle.requests →
      (∀ thread, ¬ middle.requests.pool.CanStep thread) ∨ ∃ move next, Works move ∧
        step server config middle move = .ok next ∧
        ((Sound server db next ∧ Enough server config next) ∧
          Going reached.requests.history next.requests) ∧ left next < left middle := by
    rintro middle ⟨⟨hsound, henough⟩, hgoing⟩
    by_cases hquiet : ∀ thread, ¬ middle.requests.pool.CanStep thread
    · exact .inl hquiet
    · obtain ⟨thread, hcan⟩ := not_forall_not.mp hquiet
      obtain ⟨move, next, hworks, hstep, hnext, hgoes, hless⟩ :=
        exists_work hinitial hsound henough hgoing hcan
      exact .inr ⟨move, next, hworks, hstep,
        ⟨⟨step_sound hthreads hsound hstep, hnext⟩, hgoes⟩, hless⟩
  obtain ⟨later, final, hworks, hlater, ⟨⟨hsound, -⟩, hgoing⟩, hquiet⟩ :=
    exists_run_of_progress hprogress reached ⟨hgood, hrunning, fun _ hevent ↦ hevent⟩
  refine ⟨later, final, hworks, hlater, fun id task hinvoked ↦ ?_,
    (hsound.of_quiet hgoing.running hquiet).1⟩
  obtain ⟨-, -, hexecuted⟩ := hsound.requests.pool.quiescent hgoing.running hquiet
  have haccepted := (hsound.requests.invoked id task).mp (hgoing.kept _ hinvoked)
  exact hsound.requests.done (id, task) (hexecuted.mem_iff.mpr haccepted)

/-- The thread is at the statement of its first message. -/
theorem comes_to_rest_annual : ∃ (later : List (Move 1))
    (final : State 1 (DocumentKey → Option Bytes)), (∀ move ∈ later, Works move) ∧
    run (step .ofTable Pool.smallConfig) (connected (fun _ ↦ none) (annualUpload [1])) later =
      .ok final ∧
    (∀ id task, .invoke id task ∈
        (connected (fun _ : DocumentKey ↦ (none : Option Bytes))
          (annualUpload [1])).requests.history →
      ∃ action, .answer id action ∈ final.requests.history) ∧
    final.connections.pool.borrowed = [] :=
  comes_to_rest Nat.one_pos (by decide) Pool.construct_smallPool
    (lives_arrives .ofTable (fun _ ↦ none) (annualUpload [1]))
    (run_arrives .ofTable (fun _ ↦ none) calls_annual) rfl

end Rest

end TradeServers.LogTimeServer.Serving
