import TradeServers.Bytes
import TradeServers.Library.Execution
import Mathlib.Data.Int.Order.Basic
import Mathlib.Data.List.Perm.Basic
import Mathlib.Data.List.TakeWhile
import Mathlib.Tactic.SplitIfs

/-!
# The connection pool of the log time server

`MysqlPool` keeps idle connections in a queue and counts all connections it has opened and not
given up. A producer thread, a scanner thread, `getOneConnect` and the deleter of the connections
it hands out each work in one critical section under `_queueLock`, so a run is a list of such
sections. Connections that died, the outcomes of the constructor and the clock are chosen by the
surroundings.

`step_accounted` says that every critical section keeps the books. `step_isOk_iff` says when one
evaluates `front()` of an empty queue, which is undefined and ends the run.
-/

set_option autoImplicit false
set_option relaxedAutoImplicit false

namespace TradeServers.LogTimeServer.Pool

open Execution

/-! ### The pool and its critical sections -/

/-- The settings that the critical sections read. -/
structure Config where
  initCount : ℤ
  maxCount : ℤ
  maxIdleTime : ℤ

/-- The `int` value `_maxIdleTime * 1000`. Signed overflow, which C++ leaves undefined, wraps
here. -/
def Config.idleBound (config : Config) : ℤ := (config.maxIdleTime * 1000).bmod (2 ^ 32)

/-- A connection object: the number of its allocation, and its `_alivetime`. -/
structure Connection where
  id : ℕ
  alivetime : ℤ
deriving DecidableEq

/-- The pool with the connections that are in use: `borrowed` are those whose `shared_ptr` is still
held, `closed` the objects that were closed or deleted. -/
structure State where
  queue : List Connection
  borrowed : List Connection
  currentCount : ℤ
  nextId : ℕ
  closed : List ℕ
deriving DecidableEq

/-- `front()` of an empty `std::queue`. -/
inductive Fault
  | emptyFront
deriving DecidableEq

/-- A new connection object at the back of the queue. -/
def State.add (pool : State) (now : ℤ) : State :=
  { pool with
    queue := pool.queue ++ [⟨pool.nextId, now⟩]
    currentCount := pool.currentCount + 1
    nextId := pool.nextId + 1 }

/-- The front of the queue is closed or deleted, and `rest` stays. -/
def State.close (pool : State) (front : Connection) (rest : List Connection) : State :=
  { pool with
    queue := rest
    currentCount := pool.currentCount - 1
    closed := front.id :: pool.closed }

/-- The constructor's loop after `count` rounds; `connect` says which of them connect. A connection
that does not connect is not queued. -/
def initial (connect : ℕ → Bool) (now : ℕ → ℤ) : ℕ → State
  | 0 => ⟨[], [], 0, 0, []⟩
  | count + 1 =>
    let pool := initial connect now count
    if connect count then pool.add (now count) else { pool with nextId := pool.nextId + 1 }

/-- `MysqlPool::MysqlPool`; without any connection the process exits. -/
def construct (config : Config) (connect : ℕ → Bool) (now : ℕ → ℤ) : Option State :=
  let pool := initial connect now config.initCount.toNat
  if pool.currentCount = 0 then none else some pool

/-- The loop `while (!isEmpty() && poolFront()->mysqlPing())` on the given queue of the pool:
connections at the front that do not answer are closed and dropped. -/
def evictDead (dead : ℕ → Bool) : List Connection → State → State
  | [], pool => pool
  | front :: rest, pool =>
    if dead front.id then evictDead dead rest (pool.close front rest) else pool

/-- The scanner's loop `while (_currentCount > _initCount)` on the given queue of the pool; `clock`
is the time read at each of its checks. -/
def reclaim (config : Config) (clock : ℕ → ℤ) : ℕ → List Connection → State → Except Fault State
  | _, [], pool =>
    if config.initCount < pool.currentCount then .error .emptyFront else .ok pool
  | check, front :: rest, pool =>
    if config.initCount < pool.currentCount then
      if config.idleBound ≤ clock check - front.alivetime then
        reclaim config clock (check + 1) rest (pool.close front rest)
      else .ok pool
    else .ok pool

/-- One round of `produceConnectionTask`. While the queue is not empty the producer waits. The
outcome of `connect` is not looked at. -/
def produceConnectionTask (config : Config) (now : ℤ) (pool : State) : State :=
  if pool.queue = [] then
    if pool.currentCount < config.maxCount then pool.add now else pool
  else pool

/-- `getOneConnect` once it no longer waits. On an empty queue it waits on, or times out and
returns no connection. -/
def getOneConnect (dead : ℕ → Bool) (pool : State) : Except Fault State :=
  if pool.queue = [] then .ok pool
  else
    let evicted := evictDead dead pool.queue pool
    match evicted.queue with
    | [] => .error .emptyFront
    | front :: rest =>
      .ok { evicted with queue := rest, borrowed := evicted.borrowed ++ [front] }

/-- The deleter of a borrowed connection. -/
def giveBack (index : ℕ) (now : ℤ) (pool : State) : State :=
  match pool.borrowed[index]? with
  | none => pool
  | some connection =>
    { pool with
      queue := pool.queue ++ [{ connection with alivetime := now }]
      borrowed := pool.borrowed.eraseIdx index }

/-- One pass of `scannerConnectionTask`. -/
def scannerConnectionTask (config : Config) (dead : ℕ → Bool) (clock : ℕ → ℤ) (pool : State) :
    Except Fault State :=
  let evicted := evictDead dead pool.queue pool
  reclaim config clock 0 evicted.queue evicted

/-- The critical sections, with what the surroundings decide in each. -/
inductive Action
  | produce (now : ℤ)
  | borrow (dead : ℕ → Bool)
  | giveBack (index : ℕ) (now : ℤ)
  | scan (dead : ℕ → Bool) (clock : ℕ → ℤ)

/-- The effect of a critical section. -/
def step (config : Config) (pool : State) : Action → Except Fault State
  | .produce now => .ok (produceConnectionTask config now pool)
  | .borrow dead => getOneConnect dead pool
  | .giveBack index now => .ok (Pool.giveBack index now pool)
  | .scan dead clock => scannerConnectionTask config dead clock pool

/-! ### The books -/

/-- The objects that the pool answers for: those queued and those borrowed. -/
def State.ids (pool : State) : List ℕ := (pool.queue ++ pool.borrowed).map Connection.id

/-- The counter is the number of queued and borrowed connections, no object is among them twice,
and none of them was closed. -/
structure Accounted (pool : State) : Prop where
  count : pool.currentCount = pool.queue.length + pool.borrowed.length
  distinct : pool.ids.Nodup
  allocated : ∀ id ∈ pool.ids, id < pool.nextId
  not_closed : ∀ id ∈ pool.ids, id ∉ pool.closed
  closed_allocated : ∀ id ∈ pool.closed, id < pool.nextId

/-- The books are in order, and the pool has no more connections than its settings allow. -/
structure Sound (config : Config) (pool : State) : Prop extends Accounted pool where
  bounded : pool.currentCount ≤ max config.initCount config.maxCount

/-- A section that only moves objects between the queue and the borrowers keeps the books. -/
theorem Accounted.of_perm {pool next : State} (haccounted : Accounted pool)
    (hids : next.ids.Perm pool.ids) (hcount : next.currentCount = pool.currentCount)
    (hnextId : next.nextId = pool.nextId) (hclosed : next.closed = pool.closed) :
    Accounted next where
  count := by
    have hlength := hids.length_eq
    simp only [State.ids, List.length_map, List.length_append] at hlength
    rw [hcount, haccounted.count]
    omega
  distinct := hids.nodup_iff.mpr haccounted.distinct
  allocated := fun id hid ↦ hnextId ▸ haccounted.allocated id (hids.mem_iff.mp hid)
  not_closed := fun id hid ↦ hclosed ▸ haccounted.not_closed id (hids.mem_iff.mp hid)
  closed_allocated := fun id hid ↦ hnextId ▸ haccounted.closed_allocated id (hclosed ▸ hid)

theorem ids_add_perm (pool : State) (now : ℤ) :
    (pool.add now).ids.Perm (pool.nextId :: pool.ids) := by
  simp only [State.ids, State.add, List.map_append, List.map_cons,
    List.append_assoc, List.singleton_append]
  exact List.perm_middle

theorem Accounted.add {pool : State} (haccounted : Accounted pool) (now : ℤ) :
    Accounted (pool.add now) where
  count := by
    simp only [State.add, List.length_append, List.length_singleton, haccounted.count]
    push_cast
    omega
  distinct := by
    rw [(ids_add_perm pool now).nodup_iff, List.nodup_cons]
    exact ⟨fun hmem ↦ Nat.lt_irrefl _ (haccounted.allocated _ hmem), haccounted.distinct⟩
  allocated := by
    intro id hid
    show id < pool.nextId + 1
    rcases List.mem_cons.mp ((ids_add_perm pool now).mem_iff.mp hid) with rfl | hold
    · exact Nat.lt_succ_self _
    · exact Nat.lt_succ_of_lt (haccounted.allocated id hold)
  not_closed := by
    intro id hid
    rcases List.mem_cons.mp ((ids_add_perm pool now).mem_iff.mp hid) with rfl | hold
    · exact fun hclosed ↦ Nat.lt_irrefl _ (haccounted.closed_allocated _ hclosed)
    · exact haccounted.not_closed id hold
  closed_allocated := fun id hid ↦ Nat.lt_succ_of_lt (haccounted.closed_allocated id hid)

/-- An object that was allocated and not queued changes nothing in the books. -/
theorem Accounted.skip {pool : State} (haccounted : Accounted pool) :
    Accounted { pool with nextId := pool.nextId + 1 } where
  count := haccounted.count
  distinct := haccounted.distinct
  allocated := fun id hid ↦ Nat.lt_succ_of_lt (haccounted.allocated id hid)
  not_closed := haccounted.not_closed
  closed_allocated := fun id hid ↦ Nat.lt_succ_of_lt (haccounted.closed_allocated id hid)

theorem Accounted.close {pool : State} {front : Connection} {rest : List Connection}
    (haccounted : Accounted pool) (hqueue : pool.queue = front :: rest) :
    Accounted (pool.close front rest) := by
  have hids : pool.ids = front.id :: (pool.close front rest).ids := by
    simp only [State.ids, State.close, hqueue, List.cons_append, List.map_cons]
  have hdistinct := haccounted.distinct
  rw [hids, List.nodup_cons] at hdistinct
  have hold : ∀ id ∈ (pool.close front rest).ids, id ∈ pool.ids := by
    intro id hid
    rw [hids]
    exact List.mem_cons_of_mem _ hid
  have hfront : front.id ∈ pool.ids := hids ▸ List.mem_cons_self
  refine ⟨?_, hdistinct.2, fun id hid ↦ haccounted.allocated id (hold id hid), ?_, ?_⟩
  · have hcount := haccounted.count
    rw [hqueue, List.length_cons] at hcount
    simp only [State.close]
    push_cast at hcount
    omega
  · intro id hid hclosed
    rcases List.mem_cons.mp hclosed with rfl | hbefore
    · exact hdistinct.1 hid
    · exact haccounted.not_closed id (hold id hid) hbefore
  · intro id hid
    rcases List.mem_cons.mp hid with rfl | hbefore
    · exact haccounted.allocated _ hfront
    · exact haccounted.closed_allocated id hbefore

theorem close_currentCount_le (pool : State) (front : Connection) (rest : List Connection) :
    (pool.close front rest).currentCount ≤ pool.currentCount := by
  show pool.currentCount - 1 ≤ pool.currentCount
  omega

/-! ### The loops -/

/-- Evicting dead connections drops the connections up to the first that answers. -/
theorem evictDead_spec (dead : ℕ → Bool) (queue : List Connection) :
    ∀ pool : State, pool.queue = queue →
      (evictDead dead queue pool).queue = queue.dropWhile (fun front ↦ dead front.id) ∧
        (evictDead dead queue pool).borrowed = pool.borrowed ∧
        (evictDead dead queue pool).currentCount ≤ pool.currentCount ∧
        (Accounted pool → Accounted (evictDead dead queue pool)) := by
  induction queue with
  | nil => exact fun pool hqueue ↦ ⟨hqueue, rfl, le_rfl, id⟩
  | cons front rest ih =>
    intro pool hqueue
    rw [evictDead, List.dropWhile_cons]
    split_ifs with hdead
    · obtain ⟨hleft, hborrowed, hcount, haccounted⟩ := ih (pool.close front rest) rfl
      exact ⟨hleft, hborrowed, Int.le_trans hcount (close_currentCount_le pool front rest),
        fun hbefore ↦ haccounted (hbefore.close hqueue)⟩
    · exact ⟨hqueue, rfl, le_rfl, id⟩

/-- A pass of the reclaim loop that succeeds keeps the books. -/
theorem reclaim_accounted (config : Config) (clock : ℕ → ℤ) (queue : List Connection) :
    ∀ (check : ℕ) (pool next : State), pool.queue = queue → Accounted pool →
      reclaim config clock check queue pool = .ok next →
        Accounted next ∧ next.currentCount ≤ pool.currentCount := by
  induction queue with
  | nil =>
    intro check pool next _ haccounted hreclaim
    rw [reclaim] at hreclaim
    split_ifs at hreclaim
    cases hreclaim
    exact ⟨haccounted, le_rfl⟩
  | cons front rest ih =>
    intro check pool next hqueue haccounted hreclaim
    rw [reclaim] at hreclaim
    split_ifs at hreclaim
    · obtain ⟨hnext, hcount⟩ := ih _ _ _ rfl (haccounted.close hqueue) hreclaim
      exact ⟨hnext, Int.le_trans hcount (close_currentCount_le pool front rest)⟩
    · cases hreclaim
      exact ⟨haccounted, le_rfl⟩
    · cases hreclaim
      exact ⟨haccounted, le_rfl⟩

/-- The reclaim loop meets an empty queue exactly when the borrowed connections alone exceed the
initial count and every queued one was idle for long enough when its turn came. -/
theorem reclaim_isOk_iff (config : Config) (clock : ℕ → ℤ) (queue : List Connection) :
    ∀ (check : ℕ) (pool : State), pool.queue = queue → Accounted pool →
      ((∃ next, reclaim config clock check queue pool = .ok next) ↔
        pool.borrowed.length ≤ config.initCount ∨
          ∃ position connection, queue[position]? = some connection ∧
            clock (check + position) - connection.alivetime < config.idleBound) := by
  induction queue with
  | nil =>
    intro check pool hqueue haccounted
    have hcount := haccounted.count
    rw [hqueue, List.length_nil] at hcount
    rw [reclaim]
    split_ifs with hmore
    · simp only [reduceCtorEq, exists_false, false_iff, List.getElem?_nil, false_and, or_false]
      omega
    · exact ⟨fun _ ↦ .inl (by omega), fun _ ↦ ⟨pool, rfl⟩⟩
  | cons front rest ih =>
    intro check pool hqueue haccounted
    have hcount := haccounted.count
    rw [reclaim]
    split_ifs with hmore hidle
    · rw [ih (check + 1) _ rfl (haccounted.close hqueue)]
      refine or_congr_right ⟨?_, ?_⟩
      · rintro ⟨position, connection, hconnection, hfresh⟩
        refine ⟨position + 1, connection, hconnection, ?_⟩
        rw [← Nat.add_assoc, Nat.add_right_comm]
        exact hfresh
      · rintro ⟨position, connection, hconnection, hfresh⟩
        cases position with
        | zero =>
          obtain rfl : front = connection := Option.some.inj hconnection
          rw [Nat.add_zero] at hfresh
          omega
        | succ position =>
          refine ⟨position, connection, hconnection, ?_⟩
          rw [Nat.add_right_comm, Nat.add_assoc]
          exact hfresh
    · refine ⟨fun _ ↦ .inr ⟨0, front, rfl, ?_⟩, fun _ ↦ ⟨pool, rfl⟩⟩
      rw [Nat.add_zero]
      omega
    · exact ⟨fun _ ↦ .inl (by omega), fun _ ↦ ⟨pool, rfl⟩⟩

/-! ### The critical sections -/

theorem giveBack_accounted (index : ℕ) (now : ℤ) {pool : State} (haccounted : Accounted pool) :
    Accounted (Pool.giveBack index now pool) ∧
      (Pool.giveBack index now pool).currentCount = pool.currentCount := by
  unfold Pool.giveBack
  split
  · exact ⟨haccounted, rfl⟩
  · rename_i connection hconnection
    obtain ⟨hindex, hget⟩ := List.getElem?_eq_some_iff.mp hconnection
    refine ⟨haccounted.of_perm ?_ rfl rfl rfl, rfl⟩
    have hback := List.getElem_cons_eraseIdx_perm hindex
    rw [hget] at hback
    simp only [State.ids, List.map_append, List.map_cons, List.append_assoc,
      List.singleton_append]
    exact (hback.map Connection.id).append_left _

/-- A borrower waits or takes the first connection that answers. When none does, it evaluates
`front()` of an empty queue. -/
theorem getOneConnect_isOk_iff (dead : ℕ → Bool) (pool : State) :
    (∃ next, getOneConnect dead pool = .ok next) ↔
      pool.queue = [] ∨ ∃ connection ∈ pool.queue, dead connection.id = false := by
  have hleft := (evictDead_spec dead pool.queue pool rfl).1
  unfold getOneConnect
  split_ifs with hempty
  · exact ⟨fun _ ↦ .inl hempty, fun _ ↦ ⟨pool, rfl⟩⟩
  · dsimp only
    split
    · rename_i hnone
      rw [hleft, List.dropWhile_eq_nil_iff] at hnone
      simp only [reduceCtorEq, exists_false, hempty, false_or, false_iff]
      rintro ⟨connection, hmem, halive⟩
      rw [hnone connection hmem] at halive
      cases halive
    · rename_i front rest hsome
      refine ⟨fun _ ↦ .inr ?_, fun _ ↦ ⟨_, rfl⟩⟩
      rw [hleft] at hsome
      have hmem : front ∈ pool.queue.dropWhile fun front ↦ dead front.id := by
        rw [hsome]
        exact List.mem_cons_self
      refine ⟨front, (List.dropWhile_suffix _).subset hmem, ?_⟩
      have hhead := List.head?_dropWhile_not (fun front : Connection ↦ dead front.id) pool.queue
      rw [hsome] at hhead
      simpa using hhead

/-- Borrowing moves the front of what the eviction left to the borrowers. -/
theorem getOneConnect_accounted (dead : ℕ → Bool) {pool next : State}
    (haccounted : Accounted pool) (hborrow : getOneConnect dead pool = .ok next) :
    Accounted next ∧ next.currentCount ≤ pool.currentCount := by
  obtain ⟨-, -, hcount, hevicted⟩ := evictDead_spec dead pool.queue pool rfl
  unfold getOneConnect at hborrow
  split_ifs at hborrow
  · cases hborrow
    exact ⟨haccounted, le_rfl⟩
  · dsimp only at hborrow
    split at hborrow
    · cases hborrow
    · rename_i front rest hsome
      cases hborrow
      refine ⟨(hevicted haccounted).of_perm ?_ rfl rfl rfl, hcount⟩
      simp only [State.ids, hsome, List.map_append, List.map_cons, List.map_nil,
        List.cons_append]
      rw [← List.append_assoc]
      exact List.perm_append_singleton _ _

theorem produceConnectionTask_accounted (config : Config) (now : ℤ) {pool : State}
    (haccounted : Accounted pool) :
    Accounted (produceConnectionTask config now pool) ∧
      (produceConnectionTask config now pool).currentCount ≤
        max pool.currentCount config.maxCount := by
  unfold produceConnectionTask
  split_ifs with hempty hroom
  · refine ⟨haccounted.add now, ?_⟩
    show pool.currentCount + 1 ≤ _
    omega
  · exact ⟨haccounted, le_max_left _ _⟩
  · exact ⟨haccounted, le_max_left _ _⟩

/-- Every critical section that ends keeps the books, and only the producer raises the counter, to
at most the maximal count. -/
theorem step_accounted (config : Config) {pool next : State} {action : Action}
    (haccounted : Accounted pool) (hstep : step config pool action = .ok next) :
    Accounted next ∧ next.currentCount ≤ max pool.currentCount config.maxCount := by
  cases action with
  | produce now =>
    cases hstep
    exact produceConnectionTask_accounted config now haccounted
  | borrow dead =>
    obtain ⟨hnext, hcount⟩ := getOneConnect_accounted dead haccounted hstep
    exact ⟨hnext, le_trans hcount (le_max_left _ _)⟩
  | giveBack index now =>
    cases hstep
    obtain ⟨hnext, hcount⟩ := giveBack_accounted index now haccounted
    exact ⟨hnext, le_trans hcount.le (le_max_left _ _)⟩
  | scan dead clock =>
    obtain ⟨-, -, hevictedCount, hevicted⟩ := evictDead_spec dead pool.queue pool rfl
    obtain ⟨hnext, hcount⟩ :=
      reclaim_accounted config clock _ 0 _ next rfl (hevicted haccounted) hstep
    exact ⟨hnext, le_trans (Int.le_trans hcount hevictedCount) (le_max_left _ _)⟩

/-- The critical sections that never evaluate `front()` of an empty queue: a borrower finds a queue
that is empty or holds a connection that answers; a scanner finds no more borrowed connections than
the initial count, or a connection behind the dead ones at the front that is not yet idle for long
enough when its turn comes. -/
def FrontExists (config : Config) (pool : State) : Action → Prop
  | .produce _ => True
  | .borrow dead => pool.queue = [] ∨ ∃ connection ∈ pool.queue, dead connection.id = false
  | .giveBack _ _ => True
  | .scan dead clock =>
    pool.borrowed.length ≤ config.initCount ∨
      ∃ position connection,
        (pool.queue.dropWhile fun front ↦ dead front.id)[position]? = some connection ∧
          clock position - connection.alivetime < config.idleBound

/-- A critical section evaluates `front()` of an empty queue exactly when its condition fails. -/
theorem step_isOk_iff (config : Config) {pool : State} (action : Action)
    (haccounted : Accounted pool) :
    (∃ next, step config pool action = .ok next) ↔ FrontExists config pool action := by
  cases action with
  | produce now => exact ⟨fun _ ↦ trivial, fun _ ↦ ⟨_, rfl⟩⟩
  | borrow dead => exact getOneConnect_isOk_iff dead pool
  | giveBack index now => exact ⟨fun _ ↦ trivial, fun _ ↦ ⟨_, rfl⟩⟩
  | scan dead clock =>
    obtain ⟨hleft, hborrowed, -, hevicted⟩ := evictDead_spec dead pool.queue pool rfl
    have hreclaim := reclaim_isOk_iff config clock _ 0 _ rfl (hevicted haccounted)
    rw [hleft, hborrowed] at hreclaim
    simp only [Nat.zero_add] at hreclaim
    unfold step scannerConnectionTask FrontExists
    dsimp only
    rw [hleft]
    exact hreclaim

/-! ### Runs -/

theorem initial_accounted (connect : ℕ → Bool) (now : ℕ → ℤ) (count : ℕ) :
    Accounted (initial connect now count) ∧ (initial connect now count).currentCount ≤ count := by
  induction count with
  | zero =>
    refine ⟨⟨rfl, List.nodup_nil, ?_, ?_, ?_⟩, le_rfl⟩ <;> exact fun id hid ↦ nomatch hid
  | succ count ih =>
    obtain ⟨haccounted, hcount⟩ := ih
    unfold initial
    dsimp only
    split_ifs
    · refine ⟨haccounted.add _, ?_⟩
      show (initial connect now count).currentCount + 1 ≤ _
      push_cast
      omega
    · refine ⟨haccounted.skip, ?_⟩
      show (initial connect now count).currentCount ≤ _
      push_cast
      omega

theorem construct_sound {config : Config} {connect : ℕ → Bool} {now : ℕ → ℤ} {pool : State}
    (hconstruct : construct config connect now = some pool) : Sound config pool := by
  obtain ⟨haccounted, hcount⟩ := initial_accounted connect now config.initCount.toNat
  have hlow := haccounted.count
  unfold construct at hconstruct
  dsimp only at hconstruct
  split_ifs at hconstruct with hzero
  cases hconstruct
  exact ⟨haccounted, by omega⟩

theorem step_sound {config : Config} {pool next : State} {action : Action}
    (hsound : Sound config pool) (hstep : step config pool action = .ok next) :
    Sound config next := by
  obtain ⟨haccounted, hcount⟩ := step_accounted config hsound.toAccounted hstep
  have hbounded := hsound.bounded
  exact ⟨haccounted, by omega⟩

/-- One initial connection, at most two, and a minute of idle time. -/
def smallConfig : Config := ⟨1, 2, 60⟩

/-- The pool that is constructed with these settings. -/
def smallPool : State := ⟨[⟨0, 0⟩], [], 1, 1, []⟩

theorem construct_smallPool :
    construct smallConfig (fun _ ↦ true) (fun _ ↦ 0) = some smallPool := rfl

/-- A run in which a second connection is produced, the first comes back, and the second is
reclaimed. -/
def smallRun : List Action :=
  [.borrow fun _ ↦ false, .produce 3, .giveBack 0 5, .scan (fun _ ↦ false) fun _ ↦ 70000]

/-- In every run of the critical sections of a pool, from its constructor on and up to any point
before a `front()` of an empty queue, the books are in order: the counter is the number of queued
and borrowed connections and within the settings, no connection is among them twice, and none of
them was closed or deleted. -/
theorem run_sound (config : Config) (connect : ℕ → Bool) (now : ℕ → ℤ) (actions : List Action)
    (pool final : State) (hconstruct : construct config connect now = some pool)
    (hrun : run (step config) pool actions = .ok final) : Sound config final :=
  run_invariant (fun _ _ _ ↦ step_sound) (construct_sound hconstruct) hrun

theorem smallRun_sound : Sound smallConfig ⟨[⟨0, 5⟩], [], 1, 2, [1]⟩ :=
  run_sound smallConfig (fun _ ↦ true) (fun _ ↦ 0) smallRun smallPool _ construct_smallPool rfl

/-- A run of a pool evaluates `front()` of an empty queue exactly when the condition of one of its
critical sections fails. -/
theorem run_isOk_iff (config : Config) (connect : ℕ → Bool) (now : ℕ → ℤ) (actions : List Action)
    (pool : State) (hconstruct : construct config connect now = some pool) :
    (∃ final, run (step config) pool actions = .ok final) ↔
      Guarded (step config) (FrontExists config) pool actions :=
  run_isOk_iff_guarded
    (fun _ _ _ haccounted hstep ↦ (step_accounted config haccounted hstep).1)
    (fun _ action haccounted ↦ step_isOk_iff config action haccounted)
    (construct_sound hconstruct).toAccounted

theorem smallRun_isOk_iff :
    (∃ final, run (step smallConfig) smallPool smallRun = .ok final) ↔
      Guarded (step smallConfig) (FrontExists smallConfig) smallPool smallRun :=
  run_isOk_iff smallConfig (fun _ ↦ true) (fun _ ↦ 0) smallRun smallPool construct_smallPool

/-- Two runs end in a `front()` of an empty queue: a borrower meets the only connection dead, and a
scanner meets two borrowed connections and an empty queue. -/
theorem front_of_empty_queue :
    construct smallConfig (fun _ ↦ true) (fun _ ↦ 0) = some smallPool ∧
      run (step smallConfig) smallPool [.borrow fun _ ↦ true] = .error .emptyFront ∧
      run (step smallConfig) smallPool
          [.borrow fun _ ↦ false, .produce 1, .borrow fun _ ↦ false,
            .scan (fun _ ↦ false) fun _ ↦ 2] =
        .error .emptyFront :=
  ⟨rfl, rfl, rfl⟩

end TradeServers.LogTimeServer.Pool
