import TradeServers.Library.Simulation
import TradeServers.LogTimeServer.Pool

/-!
# The condition variable of the connection pool

The producer of `MysqlPool` waits on `cv` while the queue is not empty, and `getOneConnect` waits
on it, for a limited time, while the queue is empty. `notify_all` is called behind a successful
`getOneConnect` and behind every round of the producer. The deleter that queues a connection again
does not call it, and neither does the scanner when it takes connections out of the queue.

- `wakeups_refine_pool`: with the waiting modelled, the pool still does what `Pool` says.
- `scan_queue_eq_nil_iff`: when a pass of the scanner leaves the queue empty.
- `awake_of_empty`: while no such pass meets a sleeping producer, the producer never sleeps on an
  empty queue.
- `starved_forever`: after such a pass nobody gets a connection until a borrowed one comes back;
  when none is borrowed, every later `getOneConnect` returns a null pointer.
-/

set_option autoImplicit false
set_option relaxedAutoImplicit false

namespace TradeServers.LogTimeServer.Wakeups

open Execution

/-! ### The pool and its waiting threads -/

/-- The pool, whether its producer waits on `cv`, and the calls of `getOneConnect` that wait, each
with whether it was notified. The calls that got a connection and those that returned a null pointer
are kept with it. -/
structure State where
  pool : Pool.State
  asleep : Bool
  waiters : List (ℕ × Bool)
  served : List ℕ
  failed : List ℕ

/-- The pool behind its constructor: the producer is about to take the mutex. -/
def start (pool : Pool.State) : State := ⟨pool, false, [], [], []⟩

/-- `cv.notify_all()`. -/
def State.notifyAll (state : State) : State :=
  { state with asleep := false, waiters := state.waiters.map fun waiter ↦ (waiter.1, true) }

/-- A call that does not wait any more. -/
def State.leave (state : State) (caller : ℕ) : State :=
  { state with waiters := state.waiters.filter fun waiter ↦ waiter.1 ≠ caller }

/-- The rest of `getOneConnect` behind its waiting loop. -/
def State.take (state : State) (caller : ℕ) (dead : ℕ → Bool) : Except Pool.Fault State :=
  match Pool.getOneConnect dead state.pool with
  | .error fault => .error fault
  | .ok pool =>
    .ok ({ state with pool := pool, served := state.served ++ [caller] }.leave caller).notifyAll

/-- A look at the queue with the mutex: the call goes on if the queue is not empty, and else comes
to the given state. -/
def State.look (state : State) (caller : ℕ) (dead : ℕ → Bool) (onEmpty : State) :
    Except Pool.Fault State :=
  if state.pool.queue = [] then .ok onEmpty else state.take caller dead

/-- A thread calls `getOneConnect`, unless it is in such a call. It waits if the queue is empty. -/
def State.call (state : State) (caller : ℕ) (dead : ℕ → Bool) : Except Pool.Fault State :=
  if caller ∈ state.waiters.map Prod.fst then .ok state
  else state.look caller dead { state with waiters := state.waiters ++ [(caller, false)] }

/-- A call that was woken looks at the queue again, and waits again if it is empty. -/
def State.resume (state : State) (caller : ℕ) (dead : ℕ → Bool) : Except Pool.Fault State :=
  if (caller, true) ∈ state.waiters then
    state.look caller dead { state with waiters := state.waiters.map fun waiter ↦
      if waiter.1 = caller then (caller, false) else waiter }
  else .ok state

/-- The time of a waiting call is up: it returns a null pointer if the queue is empty. -/
def State.timeout (state : State) (caller : ℕ) (dead : ℕ → Bool) : Except Pool.Fault State :=
  if caller ∈ state.waiters.map Prod.fst then
    state.look caller dead ({ state with failed := state.failed ++ [caller] }.leave caller)
  else .ok state

/-- The producer takes the mutex, unless it waits: it waits if the queue is not empty, and else
adds a connection if there is room for one. -/
def State.produce (config : Pool.Config) (state : State) (now : ℤ) : State :=
  if state.asleep then state
  else if state.pool.queue = [] then
    { state with pool := Pool.produceConnectionTask config now state.pool }.notifyAll
  else { state with asleep := true }

/-- What happens in the pool. The last two are wake-ups that no `notify_all` caused. -/
inductive Action
  | call (caller : ℕ) (dead : ℕ → Bool)
  | resume (caller : ℕ) (dead : ℕ → Bool)
  | timeout (caller : ℕ) (dead : ℕ → Bool)
  | produce (now : ℤ)
  | giveBack (index : ℕ) (now : ℤ)
  | scan (dead : ℕ → Bool) (clock : ℕ → ℤ)
  | wakeProducer
  | wakeCaller (caller : ℕ)

def step (config : Pool.Config) (state : State) : Action → Except Pool.Fault State
  | .call caller dead => state.call caller dead
  | .resume caller dead => state.resume caller dead
  | .timeout caller dead => state.timeout caller dead
  | .produce now => .ok (state.produce config now)
  | .giveBack index now => .ok { state with pool := Pool.giveBack index now state.pool }
  | .scan dead clock =>
    match Pool.scannerConnectionTask config dead clock state.pool with
    | .error fault => .error fault
    | .ok pool => .ok { state with pool := pool }
  | .wakeProducer => .ok { state with asleep := false }
  | .wakeCaller caller =>
    .ok { state with waiters := state.waiters.map fun waiter ↦
      if waiter.1 = caller then (caller, true) else waiter }

/-! ### What the steps do -/

variable {config : Pool.Config}

/-- The critical section of `Pool` that a step runs, if it changes the pool. -/
def section? (state : State) : Action → Option Pool.Action
  | .call caller dead =>
    if caller ∈ state.waiters.map Prod.fst then none else some (.borrow dead)
  | .resume caller dead => if (caller, true) ∈ state.waiters then some (.borrow dead) else none
  | .timeout caller dead =>
    if caller ∈ state.waiters.map Prod.fst then some (.borrow dead) else none
  | .produce now => if state.asleep then none else some (.produce now)
  | .giveBack index now => some (.giveBack index now)
  | .scan dead clock => some (.scan dead clock)
  | .wakeProducer => none
  | .wakeCaller _ => none

theorem take_eq_ok {state next : State} {caller : ℕ} {dead : ℕ → Bool}
    (htake : state.take caller dead = .ok next) :
    Pool.getOneConnect dead state.pool = .ok next.pool ∧ next.asleep = false ∧
      next.served = state.served ++ [caller] := by
  unfold State.take at htake
  split at htake
  · cases htake
  · rename_i pool hpool
    cases htake
    exact ⟨hpool, rfl, rfl⟩

/-- A borrower on an empty queue changes nothing in the pool. -/
theorem getOneConnect_of_empty (dead : ℕ → Bool) {pool : Pool.State} (hempty : pool.queue = []) :
    Pool.getOneConnect dead pool = .ok pool :=
  if_pos hempty

theorem look_cases {state next onEmpty : State} {caller : ℕ} {dead : ℕ → Bool}
    (hlook : state.look caller dead onEmpty = .ok next) :
    state.pool.queue = [] ∧ next = onEmpty ∨
      state.pool.queue ≠ [] ∧ state.take caller dead = .ok next := by
  unfold State.look at hlook
  split_ifs at hlook with hempty
  · exact .inl ⟨hempty, (Except.ok.inj hlook).symm⟩
  · exact .inr ⟨hempty, hlook⟩

theorem look_pool {state next onEmpty : State} {caller : ℕ} {dead : ℕ → Bool}
    (hlook : state.look caller dead onEmpty = .ok next) (honEmpty : onEmpty.pool = state.pool) :
    run (Pool.step config) state.pool [.borrow dead] = .ok next.pool := by
  refine run_cons_ok ?_ []
  rcases look_cases hlook with ⟨hempty, rfl⟩ | ⟨-, htake⟩
  · rw [honEmpty]
    exact getOneConnect_of_empty dead hempty
  · exact (take_eq_ok htake).1

/-- A step changes the pool by the critical section that it runs. -/
theorem step_pool {state next : State} {action : Action}
    (hstep : step config state action = .ok next) :
    run (Pool.step config) state.pool (section? state action).toList = .ok next.pool := by
  cases action with
  | call caller dead =>
    change state.call caller dead = .ok next at hstep
    unfold State.call at hstep
    show run _ _ (if caller ∈ state.waiters.map Prod.fst then none
      else some (Pool.Action.borrow dead)).toList = _
    split_ifs at hstep ⊢
    · cases hstep
      rfl
    · exact look_pool hstep rfl
  | resume caller dead =>
    change state.resume caller dead = .ok next at hstep
    unfold State.resume at hstep
    show run _ _ (if (caller, true) ∈ state.waiters then some (Pool.Action.borrow dead)
      else none).toList = _
    split_ifs at hstep ⊢
    · exact look_pool hstep rfl
    · cases hstep
      rfl
  | timeout caller dead =>
    change state.timeout caller dead = .ok next at hstep
    unfold State.timeout at hstep
    show run _ _ (if caller ∈ state.waiters.map Prod.fst then some (Pool.Action.borrow dead)
      else none).toList = _
    split_ifs at hstep ⊢
    · exact look_pool hstep rfl
    · cases hstep
      rfl
  | produce now =>
    cases hstep
    show run _ _ (if state.asleep then none else some (Pool.Action.produce now)).toList =
      .ok (state.produce config now).pool
    unfold State.produce
    split_ifs with hasleep hempty
    · rfl
    · rfl
    · exact run_cons_ok (congrArg Except.ok (if_neg hempty)) []
  | giveBack index now =>
    cases hstep
    rfl
  | scan dead clock =>
    unfold step at hstep
    dsimp only at hstep
    split at hstep
    · cases hstep
    · rename_i pool hscan
      cases hstep
      exact run_cons_ok hscan []
  | wakeProducer =>
    cases hstep
    rfl
  | wakeCaller caller =>
    cases hstep
    rfl

/-- With all its waiting, the pool does what `Pool` says. -/
theorem wakeups_refine_pool {pool : Pool.State} {actions : List Action} {final : State}
    (hrun : run (step config) (start pool) actions = .ok final) :
    run (Pool.step config) pool (trace (step config) section? (start pool) actions) =
      .ok final.pool := by
  have hmatched : ∀ (state : State) action next (upper : Pool.State), state.pool = upper →
      step config state action = .ok next →
      ∃ after, run (Pool.step config) upper (section? state action).toList = .ok after ∧
        next.pool = after := by
    rintro state action next upper rfl hstep
    exact ⟨next.pool, step_pool hstep, rfl⟩
  obtain ⟨after, hpool, hsame⟩ := run_simulates hmatched rfl hrun
  exact hpool.trans (congrArg Except.ok hsame.symm)

/-- The producer goes to sleep, and a call gets the connection. -/
theorem wakeups_refine_pool_small :
    run (Pool.step Pool.smallConfig) Pool.smallPool [.produce 1, .borrow fun _ ↦ false] =
      .ok ⟨[], [⟨0, 0⟩], 1, 1, []⟩ :=
  wakeups_refine_pool (show run (step Pool.smallConfig) (start Pool.smallPool)
    [.produce 1, .call 7 fun _ ↦ false] =
      .ok ⟨⟨[], [⟨0, 0⟩], 1, 1, []⟩, false, [], [7], []⟩ from rfl)

/-! ### A pass of the scanner that empties the queue -/

/-- All queued connections are dead, or as many connections as the pool keeps are borrowed and all
queued ones behind the dead ones are idle for long enough when their turn comes. -/
def Emptied (config : Pool.Config) (pool : Pool.State) (dead : ℕ → Bool) (clock : ℕ → ℤ) : Prop :=
  (∀ connection ∈ pool.queue, dead connection.id = true) ∨
    pool.borrowed.length = config.initCount ∧ ∀ position connection,
      (pool.queue.dropWhile fun front ↦ dead front.id)[position]? = some connection →
        config.idleBound ≤ clock position - connection.alivetime

theorem reclaim_queue_eq_nil_iff (config : Pool.Config) (clock : ℕ → ℤ)
    (queue : List Pool.Connection) : ∀ (check : ℕ) (pool next : Pool.State), pool.queue = queue →
      Pool.Accounted pool → Pool.reclaim config clock check queue pool = .ok next →
        (next.queue = [] ↔ queue = [] ∨ pool.borrowed.length = config.initCount ∧
          ∀ position connection, queue[position]? = some connection →
            config.idleBound ≤ clock (check + position) - connection.alivetime) := by
  induction queue with
  | nil =>
    intro check pool next hqueue _ hreclaim
    rw [Pool.reclaim] at hreclaim
    split_ifs at hreclaim
    cases hreclaim
    exact iff_of_true hqueue (.inl rfl)
  | cons front rest ih =>
    intro check pool next hqueue haccounted hreclaim
    have hcount := haccounted.count
    rw [hqueue, List.length_cons] at hcount
    rw [Pool.reclaim] at hreclaim
    split_ifs at hreclaim with hmore hidle
    · rw [ih (check + 1) _ next rfl (haccounted.close hqueue) hreclaim]
      simp only [reduceCtorEq, false_or]
      constructor
      · rintro (hnone | ⟨hborrowed, hrest⟩)
        · subst hnone
          rw [Pool.reclaim] at hreclaim
          split_ifs at hreclaim with hagain
          have hclosed : (pool.close front []).currentCount = pool.currentCount - 1 := rfl
          rw [List.length_nil] at hcount
          refine ⟨by omega, fun position connection hconnection ↦ ?_⟩
          cases position with
          | zero =>
            obtain rfl : front = connection := Option.some.inj hconnection
            exact hidle
          | succ position => cases hconnection
        · refine ⟨hborrowed, fun position connection hconnection ↦ ?_⟩
          cases position with
          | zero =>
            obtain rfl : front = connection := Option.some.inj hconnection
            exact hidle
          | succ position =>
            rw [← Nat.add_assoc, Nat.add_right_comm]
            exact hrest position connection hconnection
      · rintro ⟨hborrowed, hall⟩
        refine .inr ⟨hborrowed, fun position connection hconnection ↦ ?_⟩
        rw [Nat.add_right_comm, Nat.add_assoc]
        exact hall (position + 1) connection hconnection
    · cases hreclaim
      rw [hqueue]
      simp only [reduceCtorEq, false_or, false_iff, not_and]
      exact fun _ hall ↦ hidle (hall 0 front rfl)
    · cases hreclaim
      rw [hqueue]
      simp only [reduceCtorEq, false_or, false_iff, not_and]
      intro hborrowed
      omega

theorem scanned_queue_eq_nil_iff {dead : ℕ → Bool} {clock : ℕ → ℤ} {pool next : Pool.State}
    (haccounted : Pool.Accounted pool)
    (hscan : Pool.scannerConnectionTask config dead clock pool = .ok next) :
    next.queue = [] ↔ (pool.queue.dropWhile fun front ↦ dead front.id) = [] ∨
      pool.borrowed.length = config.initCount ∧ ∀ position connection,
        (pool.queue.dropWhile fun front ↦ dead front.id)[position]? = some connection →
          config.idleBound ≤ clock position - connection.alivetime := by
  obtain ⟨hleft, hborrowed, -, hevicted⟩ := Pool.evictDead_spec dead pool.queue pool rfl
  have hreclaim := reclaim_queue_eq_nil_iff config clock _ 0 _ next rfl (hevicted haccounted) hscan
  simp only [hleft, hborrowed, Nat.zero_add] at hreclaim
  exact hreclaim

/-- When a pass of the scanner ends, the queue is empty exactly if all queued connections were dead,
or as many as the pool keeps were borrowed and the others were idle for too long. -/
theorem scan_queue_eq_nil_iff {dead : ℕ → Bool} {clock : ℕ → ℤ} {pool next : Pool.State}
    (haccounted : Pool.Accounted pool)
    (hscan : Pool.scannerConnectionTask config dead clock pool = .ok next) :
    next.queue = [] ↔ Emptied config pool dead clock := by
  rw [scanned_queue_eq_nil_iff haccounted hscan, List.dropWhile_eq_nil_iff]
  exact Iff.rfl

/-- The only queued connection is idle for too long while another one is borrowed. -/
theorem scan_queue_eq_nil_iff_small :
    ((⟨[], [⟨0, 0⟩], 1, 2, [1]⟩ : Pool.State).queue = [] ↔
      Emptied Pool.smallConfig ⟨[⟨1, 3⟩], [⟨0, 0⟩], 2, 2, []⟩ (fun _ ↦ false) fun _ ↦ 70000) :=
  scan_queue_eq_nil_iff ⟨rfl, by decide, by decide, by decide, by decide⟩ rfl

/-! ### The producer -/

/-- The producer does not sleep on an empty queue. -/
def Awake (state : State) : Prop := state.pool.queue = [] → state.asleep = false

/-- No pass of the scanner empties the queue while the producer sleeps. -/
def KeepsAwake (config : Pool.Config) (state : State) : Action → Prop
  | .scan dead clock => state.asleep = true → ¬ Emptied config state.pool dead clock
  | _ => True

theorem look_awake {state next onEmpty : State} {caller : ℕ} {dead : ℕ → Bool}
    (hlook : state.look caller dead onEmpty = .ok next) (honEmpty : onEmpty.pool = state.pool)
    (hasleep : onEmpty.asleep = state.asleep) (hawake : Awake state) : Awake next := by
  rcases look_cases hlook with ⟨hempty, rfl⟩ | ⟨-, htake⟩
  · exact fun _ ↦ hasleep.trans (hawake hempty)
  · exact fun _ ↦ (take_eq_ok htake).2.1

theorem step_awake {state next : State} {action : Action}
    (haccounted : Pool.Accounted state.pool) (hawake : Awake state)
    (hkeeps : KeepsAwake config state action) (hstep : step config state action = .ok next) :
    Awake next := by
  cases action with
  | call caller dead =>
    change state.call caller dead = .ok next at hstep
    unfold State.call at hstep
    split_ifs at hstep
    · cases hstep
      exact hawake
    · exact look_awake hstep rfl rfl hawake
  | resume caller dead =>
    change state.resume caller dead = .ok next at hstep
    unfold State.resume at hstep
    split_ifs at hstep
    · exact look_awake hstep rfl rfl hawake
    · cases hstep
      exact hawake
  | timeout caller dead =>
    change state.timeout caller dead = .ok next at hstep
    unfold State.timeout at hstep
    split_ifs at hstep
    · exact look_awake hstep rfl rfl hawake
    · cases hstep
      exact hawake
  | produce now =>
    cases hstep
    show Awake (state.produce config now)
    unfold State.produce
    split_ifs with hasleep hempty
    · exact hawake
    · exact fun _ ↦ rfl
    · exact fun hnone ↦ (hempty hnone).elim
  | giveBack index now =>
    cases hstep
    intro hempty
    refine hawake ?_
    change (Pool.giveBack index now state.pool).queue = [] at hempty
    unfold Pool.giveBack at hempty
    split at hempty
    · exact hempty
    · simp at hempty
  | scan dead clock =>
    unfold step at hstep
    dsimp only at hstep
    split at hstep
    · cases hstep
    · rename_i pool hscan
      cases hstep
      intro hempty
      show state.asleep = false
      by_contra hasleep
      rw [Bool.not_eq_false] at hasleep
      exact hkeeps hasleep (((scanned_queue_eq_nil_iff haccounted hscan).mp hempty).imp_left
        List.dropWhile_eq_nil_iff.mp)
  | wakeProducer =>
    cases hstep
    exact fun _ ↦ rfl
  | wakeCaller caller =>
    cases hstep
    exact hawake

theorem step_accounted {state next : State} {action : Action}
    (haccounted : Pool.Accounted state.pool) (hstep : step config state action = .ok next) :
    Pool.Accounted next.pool :=
  run_invariant (fun _ _ _ hbefore hsection ↦ (Pool.step_accounted config hbefore hsection).1)
    haccounted (step_pool hstep)

/-- As long as no pass of the scanner empties the queue under a sleeping producer, the producer is
awake whenever the queue is empty, and its next round adds a connection if there is room for one. -/
theorem awake_of_empty {connect : ℕ → Bool} {now : ℕ → ℤ} {pool : Pool.State}
    {actions : List Action} {final : State}
    (hconstruct : Pool.construct config connect now = some pool)
    (hkeeps : Guarded (step config) (KeepsAwake config) (start pool) actions)
    (hrun : run (step config) (start pool) actions = .ok final)
    (hempty : final.pool.queue = []) :
    final.asleep = false ∧ (final.pool.currentCount < config.maxCount → ∀ time,
      (final.produce config time).pool.queue = [⟨final.pool.nextId, time⟩]) := by
  have hstart : Pool.Accounted (start pool).pool ∧ Awake (start pool) :=
    ⟨(Pool.construct_sound hconstruct).toAccounted, fun _ ↦ rfl⟩
  have hpreserved : ∀ (state : State) action next, Pool.Accounted state.pool ∧ Awake state →
      KeepsAwake config state action → step config state action = .ok next →
      Pool.Accounted next.pool ∧ Awake next :=
    fun _ _ _ hgood hguard hstep ↦
      ⟨step_accounted hgood.1 hstep, step_awake hgood.1 hgood.2 hguard hstep⟩
  have hawake := (hkeeps.run_invariant hpreserved hstart hrun).2 hempty
  refine ⟨hawake, fun hroom time ↦ ?_⟩
  unfold State.produce Pool.produceConnectionTask
  rw [if_neg (by rw [hawake]; simp), if_pos hempty]
  show (if final.pool.queue = [] then _ else _ : Pool.State).queue = _
  rw [if_pos hempty, if_pos hroom]
  show final.pool.queue ++ _ = _
  rw [hempty]
  rfl

/-- A connection is borrowed, which wakes the producer, and it makes another one. -/
theorem awake_of_empty_small :
    (⟨⟨[], [⟨0, 0⟩], 1, 1, []⟩, false, [], [7], []⟩ : State).asleep = false ∧
      ∀ time, ((⟨⟨[], [⟨0, 0⟩], 1, 1, []⟩, false, [], [7], []⟩ : State).produce Pool.smallConfig
        time).pool.queue = [⟨1, time⟩] := by
  have hrun : run (step Pool.smallConfig) (start Pool.smallPool)
      [.produce 1, .call 7 fun _ ↦ false] =
        .ok ⟨⟨[], [⟨0, 0⟩], 1, 1, []⟩, false, [], [7], []⟩ := rfl
  have hkeeps : Guarded (step Pool.smallConfig) (KeepsAwake Pool.smallConfig)
      (start Pool.smallPool) [.produce 1, .call 7 fun _ ↦ false] :=
    ⟨trivial, fun _ _ ↦ ⟨trivial, fun _ _ ↦ trivial⟩⟩
  obtain ⟨hawake, hroom⟩ := awake_of_empty Pool.construct_smallPool hkeeps hrun rfl
  exact ⟨hawake, hroom (by decide)⟩

/-! ### Starvation -/

/-- The producer sleeps, the queue is empty, and none of the borrowed connections comes back. -/
structure Starved (borrowed : List Pool.Connection) (served : List ℕ) (state : State) : Prop where
  asleep : state.asleep = true
  empty : state.pool.queue = []
  kept : state.pool.borrowed = borrowed
  unserved : state.served = served

/-- No borrowed connection is given back, and the producer is not woken for no reason. -/
def NothingReturns (borrowed : List Pool.Connection) : Action → Prop
  | .giveBack index _ => borrowed[index]? = none
  | .wakeProducer => False
  | _ => True

variable {borrowed : List Pool.Connection} {served : List ℕ}

theorem look_starved {state next onEmpty : State} {caller : ℕ} {dead : ℕ → Bool}
    (hstarved : Starved borrowed served state) (hlook : state.look caller dead onEmpty = .ok next)
    (honEmpty : Starved borrowed served onEmpty) : Starved borrowed served next := by
  rcases look_cases hlook with ⟨-, rfl⟩ | ⟨hsome, -⟩
  · exact honEmpty
  · exact (hsome hstarved.empty).elim

theorem step_starved {state next : State} {action : Action}
    (hstarved : Starved borrowed served state) (hnothing : NothingReturns borrowed action)
    (hstep : step config state action = .ok next) : Starved borrowed served next := by
  obtain ⟨hasleep, hempty, hkept, hunserved⟩ := id hstarved
  cases action with
  | call caller dead =>
    change state.call caller dead = .ok next at hstep
    unfold State.call at hstep
    split_ifs at hstep
    · cases hstep
      exact hstarved
    · exact look_starved hstarved hstep ⟨hasleep, hempty, hkept, hunserved⟩
  | resume caller dead =>
    change state.resume caller dead = .ok next at hstep
    unfold State.resume at hstep
    split_ifs at hstep
    · exact look_starved hstarved hstep ⟨hasleep, hempty, hkept, hunserved⟩
    · cases hstep
      exact hstarved
  | timeout caller dead =>
    change state.timeout caller dead = .ok next at hstep
    unfold State.timeout at hstep
    split_ifs at hstep
    · exact look_starved hstarved hstep ⟨hasleep, hempty, hkept, hunserved⟩
    · cases hstep
      exact hstarved
  | produce now =>
    cases hstep
    show Starved borrowed served (state.produce config now)
    unfold State.produce
    rw [if_pos hasleep]
    exact hstarved
  | giveBack index now =>
    cases hstep
    have hsame : Pool.giveBack index now state.pool = state.pool := by
      unfold Pool.giveBack
      rw [hkept, show borrowed[index]? = none from hnothing]
    rw [hsame]
    exact hstarved
  | scan dead clock =>
    unfold step at hstep
    dsimp only at hstep
    split at hstep
    · cases hstep
    · rename_i pool hscan
      cases hstep
      unfold Pool.scannerConnectionTask at hscan
      dsimp only at hscan
      rw [hempty, Pool.evictDead, hempty, Pool.reclaim] at hscan
      split_ifs at hscan
      cases hscan
      exact hstarved
  | wakeProducer => exact hnothing.elim
  | wakeCaller caller =>
    cases hstep
    exact ⟨hasleep, hempty, hkept, hunserved⟩

/-- Once the queue is empty and the producer asleep, no call gets a connection until a borrowed one
comes back, whatever the settings leave room for. -/
theorem unserved_until_return {state final : State} {actions : List Action}
    (hasleep : state.asleep = true) (hempty : state.pool.queue = [])
    (hnothing : ∀ action ∈ actions, NothingReturns state.pool.borrowed action)
    (hrun : run (step config) state actions = .ok final) :
    final.asleep = true ∧ final.pool.queue = [] ∧ final.served = state.served := by
  have hguarded :
      Guarded (step config) (fun _ ↦ NothingReturns state.pool.borrowed) state actions :=
    guarded_of_forall_mem hnothing state
  have hstarved : Starved state.pool.borrowed state.served final :=
    hguarded.run_invariant (fun _ _ _ ↦ step_starved) ⟨hasleep, hempty, rfl, rfl⟩ hrun
  exact ⟨hstarved.asleep, hstarved.empty, hstarved.unserved⟩

theorem reclaim_borrowed (config : Pool.Config) (clock : ℕ → ℤ) (queue : List Pool.Connection) :
    ∀ (check : ℕ) (pool next : Pool.State), Pool.reclaim config clock check queue pool = .ok next →
      next.borrowed = pool.borrowed := by
  induction queue with
  | nil =>
    intro check pool next hreclaim
    rw [Pool.reclaim] at hreclaim
    split_ifs at hreclaim
    cases hreclaim
    rfl
  | cons front rest ih =>
    intro check pool next hreclaim
    rw [Pool.reclaim] at hreclaim
    split_ifs at hreclaim
    · exact ih _ (pool.close front rest) next hreclaim
    · cases hreclaim
      rfl
    · cases hreclaim
      rfl

theorem scan_eq_ok {state next : State} {dead : ℕ → Bool} {clock : ℕ → ℤ}
    (hscan : step config state (.scan dead clock) = .ok next) :
    Pool.scannerConnectionTask config dead clock state.pool = .ok next.pool ∧
      next = { state with pool := next.pool } := by
  unfold step at hscan
  dsimp only at hscan
  split at hscan
  · cases hscan
  · rename_i pool hpool
    cases hscan
    exact ⟨hpool, rfl⟩

theorem reached_accounted {connect : ℕ → Bool} {now : ℕ → ℤ} {pool : Pool.State}
    {actions : List Action} {final : State}
    (hconstruct : Pool.construct config connect now = some pool)
    (hrun : run (step config) (start pool) actions = .ok final) : Pool.Accounted final.pool := by
  have hstart : Pool.Accounted (start pool).pool := (Pool.construct_sound hconstruct).toAccounted
  have hpreserved : ∀ (state : State) action next, Pool.Accounted state.pool →
      step config state action = .ok next → Pool.Accounted next.pool :=
    fun _ _ _ ↦ step_accounted
  exact run_invariant hpreserved hstart hrun

/-- When a pass of the scanner finds all connections dead while the producer sleeps and none is
borrowed, no call of `getOneConnect` ever gets a connection again: every one that waits returns a
null pointer when its time is up. -/
theorem starved_forever {connect : ℕ → Bool} {now : ℕ → ℤ} {pool : Pool.State}
    {earlier later : List Action} {state next final : State} {dead : ℕ → Bool} {clock : ℕ → ℤ}
    (hconstruct : Pool.construct config connect now = some pool)
    (hearlier : run (step config) (start pool) earlier = .ok state)
    (hasleep : state.asleep = true) (hreturned : state.pool.borrowed = [])
    (hdead : ∀ connection ∈ state.pool.queue, dead connection.id = true)
    (hscan : step config state (.scan dead clock) = .ok next)
    (hlater : run (step config) next later = .ok final) (hwoken : .wakeProducer ∉ later) :
    final.pool.queue = [] ∧ final.served = state.served ∧
      ∀ caller, caller ∈ final.waiters.map Prod.fst → ∀ dead,
        step config final (.timeout caller dead) =
          .ok ({ final with failed := final.failed ++ [caller] }.leave caller) := by
  obtain ⟨hpool, hnext⟩ := scan_eq_ok hscan
  have hempty : next.pool.queue = [] :=
    (scanned_queue_eq_nil_iff (reached_accounted hconstruct hearlier) hpool).mpr
      (.inl (List.dropWhile_eq_nil_iff.mpr hdead))
  have hborrowed : next.pool.borrowed = [] := by
    rw [reclaim_borrowed config clock _ 0 _ next.pool hpool,
      (Pool.evictDead_spec dead state.pool.queue state.pool rfl).2.1, hreturned]
  have hstill : next.asleep = true ∧ next.served = state.served := by
    rw [hnext]
    exact ⟨hasleep, rfl⟩
  have hnothing : ∀ action ∈ later, NothingReturns next.pool.borrowed action := by
    intro action haction
    cases action with
    | giveBack index now =>
      rw [hborrowed]
      exact List.getElem?_nil
    | wakeProducer => exact (hwoken haction).elim
    | _ => trivial
  obtain ⟨-, hnone, hserved⟩ := unserved_until_return hstill.1 hempty hnothing hlater
  refine ⟨hnone, hserved.trans hstill.2, fun caller hwaits dead ↦ ?_⟩
  show final.timeout caller dead = _
  rw [State.timeout, if_pos hwaits, State.look, if_pos hnone]

/-- All connections die while nobody uses the pool: a request that comes later waits in vain. -/
theorem starved_forever_small :
    run (step Pool.smallConfig) (start Pool.smallPool)
        [.produce 1, .scan (fun _ ↦ true) fun _ ↦ 0, .produce 2, .call 7 fun _ ↦ false] =
      .ok ⟨⟨[], [], 0, 1, [0]⟩, true, [(7, false)], [], []⟩ ∧
    step Pool.smallConfig ⟨⟨[], [], 0, 1, [0]⟩, true, [(7, false)], [], []⟩
        (.timeout 7 fun _ ↦ false) =
      .ok ⟨⟨[], [], 0, 1, [0]⟩, true, [], [], [7]⟩ := by
  have hearlier : run (step Pool.smallConfig) (start Pool.smallPool) [.produce 1] =
      .ok ⟨Pool.smallPool, true, [], [], []⟩ := rfl
  have hscan : step Pool.smallConfig ⟨Pool.smallPool, true, [], [], []⟩
      (.scan (fun _ ↦ true) fun _ ↦ 0) = .ok ⟨⟨[], [], 0, 1, [0]⟩, true, [], [], []⟩ := rfl
  have hlater : run (step Pool.smallConfig) ⟨⟨[], [], 0, 1, [0]⟩, true, [], [], []⟩
      [.produce 2, .call 7 fun _ ↦ false] =
      .ok ⟨⟨[], [], 0, 1, [0]⟩, true, [(7, false)], [], []⟩ := rfl
  obtain ⟨-, -, hnull⟩ :=
    starved_forever Pool.construct_smallPool hearlier rfl rfl (by decide) hscan hlater (by simp)
  exact ⟨rfl, hnull 7 (by decide) fun _ ↦ false⟩

end TradeServers.LogTimeServer.Wakeups
