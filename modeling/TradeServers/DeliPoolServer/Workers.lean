import Mathlib.Data.List.TakeWhile
import TradeServers.DeliPoolServer.Pool
import TradeServers.Library.Holders

/-!
# The workers of the pool server

`doPut` and `doGet` take a connection from the pool, use it without looking whether it is the null
pointer, and give it back. The constructor counts its connections twice and nothing corrects that,
so the pool refuses to create connections too early.

- `Workers.Sound`: what the counter, the queue and the workers have in common along every run.
- `Workers.Sound.getOneConnect`, `Workers.Sound.getOneConnect_null`: when a worker gets a
  connection, and when the null pointer.
- `never_null_iff`: the settings for which no worker ever gets the null pointer while MySQL accepts
  every connection.
-/

set_option autoImplicit false
set_option relaxedAutoImplicit false

namespace TradeServers.DeliPoolServer

open Execution

variable {n : ℕ}

/-- The pool, and the connection that each worker holds in `doPut` or `doGet`. -/
structure Workers (n : ℕ) where
  pool : MysqlPool
  holding : Fin n → Option ℕ

/-- A fault of the pool, or a statement on the null pointer. -/
inductive WorkerFault
  | pool (fault : PoolFault)
  | nullConnection

/-- The two critical sections of `doPut` and `doGet`. -/
inductive WorkerCall (n : ℕ)
  | getOneConnect (worker : Fin n) (alive : ℕ → Bool) (answers : CreateAnswers)
  | close (worker : Fin n)

namespace Workers

/-- A worker that has no connection gets one and executes its statement. -/
def getOneConnect (state : Workers n) (worker : Fin n) (alive : ℕ → Bool)
    (answers : CreateAnswers) : Except WorkerFault (Workers n) :=
  match state.holding worker with
  | some _ => .ok state
  | none =>
    match state.pool.getOneConnect alive answers with
    | .error fault => .error (.pool fault)
    | .ok (none, _) => .error .nullConnection
    | .ok (some conn, pool) =>
      .ok ⟨.handOut (some conn, pool), Function.update state.holding worker (some conn)⟩

/-- A worker gives its connection back. -/
def close (state : Workers n) (worker : Fin n) : Except WorkerFault (Workers n) :=
  match state.holding worker with
  | none => .ok state
  | some conn =>
    match poolStep state.pool (.close (some conn)) with
    | .error fault => .error (.pool fault)
    | .ok pool => .ok ⟨pool, Function.update state.holding worker none⟩

def step (state : Workers n) : WorkerCall n → Except WorkerFault (Workers n)
  | .getOneConnect worker alive answers => state.getOneConnect worker alive answers
  | .close worker => state.close worker

/-- The server when the constructor of the pool opened all connections. -/
def start (n : ℕ) (initcount maxcount : UInt32) : Workers n :=
  ⟨.construct initcount maxcount fun _ ↦ ⟨true, true⟩, fun _ ↦ none⟩

end Workers

/-- MySQL accepts the connection that the call may create. -/
def WorkerCall.Creates : WorkerCall n → Prop
  | .getOneConnect _ _ answers => answers.succeeds = true
  | .close _ => True

/-- All connections that workers hold. -/
def Workers.held (state : Workers n) : Multiset ℕ := Holders.held state.holding

/-- While a worker holds no connection, fewer are held than there are workers. -/
theorem Workers.card_held_lt {state : Workers n} {worker : Fin n}
    (hfree : state.holding worker = none) : state.held.card < n :=
  (Holders.card_held_lt hfree).trans_eq (Fintype.card_fin n)

/-! ### What a worker gets -/

/-- The constructor's loop when all connections succeed: every connection is queued, and counted
twice. -/
theorem initialRounds_succeed (maxcount : UInt32) {rounds : ℕ} (hrounds : 2 * rounds < 2 ^ 31) :
    MysqlPool.initialRounds (fun _ ↦ ⟨true, true⟩) ⟨maxcount, [], 0, [], 0, []⟩ rounds =
      ⟨maxcount, (List.range rounds).map some, 2 * rounds, [], rounds, []⟩ := by
  induction rounds with
  | zero => rfl
  | succ rounds ih =>
    unfold MysqlPool.initialRounds
    rw [ih (by omega)]
    unfold MysqlPool.initialRound MysqlPool.createOneConnect
    have hone : addInt32 (2 * rounds : ℤ) 1 = 2 * rounds + 1 :=
      addInt32_of_bounds (by omega) (by omega)
    have htwo : addInt32 (2 * rounds + 1 : ℤ) 1 = 2 * (rounds + 1 : ℕ) := by
      rw [addInt32_of_bounds (by omega) (by omega)]
      omega
    simp only [if_true, hone, htwo, List.range_succ, List.map_append, List.map_cons, List.map_nil]

/-- The pointer is to a connection that does not answer. -/
def isDead (alive : ℕ → Bool) (conn : Option ℕ) : Bool := conn.any fun conn ↦ !alive conn

/-- The loop of `getOneConnect` drops the dead connections at the front. -/
theorem evict_eq (alive : ℕ → Bool) {queue : List (Option ℕ)} {count : ℤ}
    (hnonnull : none ∉ queue) (hlow : (queue.length : ℤ) ≤ count) (hhigh : count < 2 ^ 31) :
    MysqlPool.evict alive queue count = .ok (queue.dropWhile (isDead alive),
      count - (queue.length - (queue.dropWhile (isDead alive)).length)) := by
  induction queue generalizing count with
  | nil => simp [MysqlPool.evict]
  | cons front queue ih =>
    cases front with
    | none => exact absurd List.mem_cons_self hnonnull
    | some front =>
      unfold MysqlPool.evict
      by_cases halive : alive front = true
      · rw [if_pos halive, List.dropWhile_cons_of_neg (by simp [isDead, halive])]
        simp
      · have hdead : isDead alive (some front) = true := by simp [isDead, halive]
        rw [if_neg halive, List.dropWhile_cons_of_pos hdead]
        rw [List.length_cons, Nat.cast_add, Nat.cast_one] at hlow
        rw [addInt32_of_bounds (by omega) (by omega),
          ih (fun hmem ↦ hnonnull (List.mem_cons_of_mem _ hmem)) (by omega) (by omega)]
        rw [List.length_cons, Nat.cast_add, Nat.cast_one]
        congr 2
        omega

/-- Every connection of the constructor is counted twice as long as the server lives; the queue
holds no null pointer, and what the pool handed out is what the workers hold. -/
structure Workers.Sound (initcount maxcount : UInt32) (state : Workers n) : Prop where
  counted : state.pool.currentCount = state.pool.opened + initcount.toNat
  bounded : state.pool.currentCount ≤ (max (2 * initcount.toNat) maxcount.toNat : ℕ)
  nonnull : none ∉ state.pool.mysqlpool
  limit : state.pool.maxCount = maxcount
  held : (state.pool.handedOut : Multiset ℕ) = state.held

variable {initcount maxcount : UInt32}

theorem start_sound (hinit : 2 * initcount.toNat < 2 ^ 31) :
    (Workers.start n initcount maxcount).Sound initcount maxcount := by
  have hsmall : initcount.toNat < 2 ^ 31 := by omega
  have hpool : MysqlPool.construct initcount maxcount (fun _ ↦ ⟨true, true⟩) =
      ⟨maxcount, (List.range initcount.toNat).map some, 2 * initcount.toNat, [],
        initcount.toNat, []⟩ := by
    unfold MysqlPool.construct
    rw [toInt32_of_lt hsmall, Int.toNat_natCast]
    exact initialRounds_succeed maxcount hinit
  have hnonnull : none ∉ (List.range initcount.toNat).map some := by simp
  unfold Workers.start
  rw [hpool]
  refine ⟨?_, ?_, hnonnull, rfl, ?_⟩
  · have hqueued := length_reduceOption hnonnull
    rw [List.length_map, List.length_range] at hqueued
    unfold MysqlPool.opened MysqlPool.queued
    rw [hqueued]
    push_cast
    simp
    omega
  · push_cast
    omega
  · exact (Holders.held_eq_zero fun _ ↦ rfl).symm

/-- The pool when the loop of `getOneConnect` has dropped every queued connection. -/
def MysqlPool.drained (pool : MysqlPool) : MysqlPool :=
  { pool with
    mysqlpool := []
    currentCount := pool.currentCount - pool.mysqlpool.length }

/-- `getOneConnect` hands out the first connection that answers, and without one creates a
connection. -/
theorem getOneConnect_eq {pool : MysqlPool} (alive : ℕ → Bool) (answers : CreateAnswers)
    (hnonnull : none ∉ pool.mysqlpool) (hlow : (pool.mysqlpool.length : ℤ) ≤ pool.currentCount)
    (hhigh : pool.currentCount < 2 ^ 31) :
    pool.getOneConnect alive answers =
      match pool.mysqlpool.dropWhile (isDead alive) with
      | [] => .ok (pool.drained.createOrRefuse answers)
      | conn :: rest => .ok (conn, { pool with
          mysqlpool := rest
          currentCount := pool.currentCount - (pool.mysqlpool.length - (rest.length + 1)) }) := by
  by_cases hempty : pool.mysqlpool = []
  · have hsame : pool.drained = pool := by
      obtain ⟨maxCount, queue, count, handedOut, created, refusals⟩ := pool
      dsimp only at hempty
      simp [MysqlPool.drained, hempty]
    rw [getOneConnect_of_empty hempty, hempty, hsame]
    rfl
  · unfold MysqlPool.getOneConnect
    rw [if_pos hempty, evict_eq alive hnonnull hlow hhigh]
    cases hrest : pool.mysqlpool.dropWhile (isDead alive) with
    | nil => simp [MysqlPool.drained]
    | cons conn rest => simp

/-- While the pool counts fewer than it may have, it creates a connection. -/
theorem createOrRefuse_of_lt {pool : MysqlPool} {answers : CreateAnswers}
    (hcreates : answers.succeeds = true) (hmax : pool.maxCount.toNat < 2 ^ 31)
    (hpos : 0 ≤ pool.currentCount) (hroom : pool.currentCount < pool.maxCount.toNat) :
    pool.createOrRefuse answers = (some pool.created, { pool with
      created := pool.created + 1
      currentCount := pool.currentCount + 1 }) := by
  obtain ⟨hinitialised, hconnects⟩ := Bool.and_eq_true_iff.mp hcreates
  unfold MysqlPool.createOrRefuse MysqlPool.createOneConnect
  rw [toInt32_of_lt hmax, if_pos hroom, if_pos hinitialised, if_pos hconnects,
    addInt32_of_bounds (by omega) (by omega)]

/-- Otherwise it returns the null pointer. -/
theorem createOrRefuse_of_le {pool : MysqlPool} (answers : CreateAnswers)
    (hmax : pool.maxCount.toNat < 2 ^ 31) (hfull : (pool.maxCount.toNat : ℤ) ≤ pool.currentCount) :
    (pool.createOrRefuse answers).1 = none := by
  unfold MysqlPool.createOrRefuse
  rw [toInt32_of_lt hmax, if_neg (by omega)]

namespace Workers

variable {state : Workers n} {worker : Fin n} {conn : ℕ}

theorem Sound.card_handedOut (hsound : state.Sound initcount maxcount) :
    state.pool.handedOut.length = state.held.card := by
  rw [← hsound.held, Multiset.coe_card]

theorem Sound.opened (hsound : state.Sound initcount maxcount) :
    state.pool.opened = state.pool.mysqlpool.length + state.held.card := by
  unfold MysqlPool.opened MysqlPool.queued
  rw [length_reduceOption hsound.nonnull, hsound.card_handedOut]

/-- A pool without queued connections counts the held ones, and the constructor's once more. -/
theorem Sound.drained_currentCount (hsound : state.Sound initcount maxcount) :
    state.pool.drained.currentCount = state.held.card + initcount.toNat := by
  have hcounted := hsound.counted
  have hopened := hsound.opened
  change state.pool.currentCount - state.pool.mysqlpool.length = _
  omega

/-- The pool may hand a connection to a worker without one when its counter follows the queue. -/
theorem Sound.assign (hsound : state.Sound initcount maxcount)
    (hfree : state.holding worker = none) {queue : List (Option ℕ)} {count : ℤ} (created : ℕ)
    (hnonnull : none ∉ queue)
    (hcount : count = queue.length + (state.held.card + 1) + initcount.toNat)
    (hbounded : count ≤ (max (2 * initcount.toNat) maxcount.toNat : ℕ)) :
    Workers.Sound initcount maxcount
      ⟨.handOut (some conn, { state.pool with
          mysqlpool := queue
          currentCount := count
          created := created }),
        Function.update state.holding worker (some conn)⟩ where
  counted := by
    have hqueued := length_reduceOption hnonnull
    have hcard := hsound.card_handedOut
    simp only [MysqlPool.opened, MysqlPool.queued, MysqlPool.handOut, Option.toList_some,
      List.singleton_append, List.length_cons]
    omega
  bounded := hbounded
  nonnull := hnonnull
  limit := hsound.limit
  held := by
    rw [Workers.held, Holders.held_update_some hfree, ← Workers.held, ← hsound.held]
    rfl

/-- A worker without a connection gets one when a queued connection answers or the pool counts fewer
than it may have. -/
theorem Sound.getOneConnect (hsound : state.Sound initcount maxcount)
    (hinit : 2 * initcount.toNat < 2 ^ 31) (hmax : maxcount.toNat < 2 ^ 31)
    (hfree : state.holding worker = none) (alive : ℕ → Bool) {answers : CreateAnswers}
    (hcreates : answers.succeeds = true)
    (hserved : state.pool.mysqlpool.dropWhile (isDead alive) ≠ [] ∨
      state.held.card + initcount.toNat < maxcount.toNat) :
    ∃ conn pool, state.getOneConnect worker alive answers =
        .ok ⟨pool, Function.update state.holding worker (some conn)⟩ ∧
      Workers.Sound initcount maxcount
        ⟨pool, Function.update state.holding worker (some conn)⟩ := by
  have hcounted := hsound.counted
  have hbounded := hsound.bounded
  have hopened := hsound.opened
  have hlimit : state.pool.drained.maxCount.toNat = maxcount.toNat :=
    congrArg UInt32.toNat hsound.limit
  have hdrained := hsound.drained_currentCount
  have hgot := getOneConnect_eq alive answers hsound.nonnull (by omega) (by omega)
  unfold Workers.getOneConnect
  rw [hfree, hgot]
  cases hrest : state.pool.mysqlpool.dropWhile (isDead alive) with
  | nil =>
    have hroom := hserved.resolve_left fun hne ↦ hne hrest
    rw [createOrRefuse_of_lt hcreates (hlimit.trans_lt hmax) (by omega) (by omega)]
    refine ⟨state.pool.created, _, rfl, hsound.assign hfree _ List.not_mem_nil ?_ (by omega)⟩
    rw [hdrained, show state.pool.drained.mysqlpool = [] from rfl, List.length_nil]
    omega
  | cons conn rest =>
    have hsuffix : conn :: rest <:+ state.pool.mysqlpool := hrest ▸ List.dropWhile_suffix _
    have hlength := hsuffix.length_le
    rw [List.length_cons] at hlength
    cases conn with
    | none => exact absurd (hsuffix.subset List.mem_cons_self) hsound.nonnull
    | some conn =>
      have hnonnull : none ∉ rest := fun hmem ↦
        hsound.nonnull (hsuffix.subset (List.mem_cons_of_mem _ hmem))
      exact ⟨conn, _, rfl, hsound.assign hfree _ hnonnull (by omega) (by omega)⟩

/-- Otherwise it gets the null pointer. -/
theorem Sound.getOneConnect_null (hsound : state.Sound initcount maxcount)
    (hinit : 2 * initcount.toNat < 2 ^ 31) (hmax : maxcount.toNat < 2 ^ 31)
    (hfree : state.holding worker = none) {alive : ℕ → Bool} (answers : CreateAnswers)
    (hdead : state.pool.mysqlpool.dropWhile (isDead alive) = [])
    (hfull : maxcount.toNat ≤ state.held.card + initcount.toNat) :
    state.getOneConnect worker alive answers = .error .nullConnection := by
  have hcounted := hsound.counted
  have hbounded := hsound.bounded
  have hopened := hsound.opened
  have hlimit : state.pool.drained.maxCount.toNat = maxcount.toNat :=
    congrArg UInt32.toNat hsound.limit
  have hdrained := hsound.drained_currentCount
  have hgot := getOneConnect_eq alive answers hsound.nonnull (by omega) (by omega)
  have hnull := createOrRefuse_of_le answers (hlimit.trans_lt hmax) (by omega)
  unfold Workers.getOneConnect
  rw [hfree, hgot, hdead]
  generalize state.pool.drained.createOrRefuse answers = got at hnull
  obtain ⟨conn, pool⟩ := got
  rw [show conn = none from hnull]

/-- A connection that a worker gives back is queued. -/
theorem close_eq (hholds : state.holding worker = some conn) (hmem : conn ∈ state.pool.handedOut) :
    state.close worker = .ok ⟨{ state.pool with
        mysqlpool := state.pool.mysqlpool ++ [some conn]
        handedOut := state.pool.handedOut.erase conn },
      Function.update state.holding worker none⟩ := by
  have hclose : poolStep state.pool (.close (some conn)) = .ok { state.pool with
      mysqlpool := state.pool.mysqlpool ++ [some conn]
      handedOut := state.pool.handedOut.erase conn } := if_pos hmem
  simp only [Workers.close, hholds, hclose]

/-- A worker may give back what it holds. -/
theorem Sound.close (hsound : state.Sound initcount maxcount) (worker : Fin n) :
    ∃ next, state.close worker = .ok next ∧ next.Sound initcount maxcount := by
  cases hholds : state.holding worker with
  | none => exact ⟨state, by simp only [Workers.close, hholds], hsound⟩
  | some conn =>
    have hheld := Holders.held_update_none hholds
    have hmem : conn ∈ state.pool.handedOut := by
      rw [← Multiset.mem_coe, hsound.held, Workers.held, ← hheld]
      exact Multiset.mem_cons_self conn _
    refine ⟨_, close_eq hholds hmem, ?_, hsound.bounded, ?_, hsound.limit, ?_⟩
    · have hpos := List.length_pos_of_mem hmem
      have hcounted := hsound.counted
      have hlength := List.length_erase_of_mem hmem
      unfold MysqlPool.opened MysqlPool.queued at hcounted ⊢
      change state.pool.currentCount = _
      rw [List.reduceOption_append, List.length_append, hlength,
        show [some conn].reduceOption.length = 1 from rfl]
      omega
    · simpa using hsound.nonnull
    · rw [← Multiset.coe_erase, hsound.held, Workers.held, ← hheld, Multiset.erase_cons_head]
      rfl

end Workers

/-! ### The number of workers that the settings serve -/

section Serve

open Workers

/-- While the settings serve all workers, every call succeeds. -/
theorem step_served (hinit : 2 * initcount.toNat < 2 ^ 31) (hmax : maxcount.toNat < 2 ^ 31)
    (hserved : n + initcount.toNat ≤ maxcount.toNat) {state : Workers n} {call : WorkerCall n}
    (hsound : state.Sound initcount maxcount) (hcreates : call.Creates) :
    ∃ next, Workers.step state call = .ok next ∧ next.Sound initcount maxcount := by
  cases call with
  | getOneConnect worker alive answers =>
    cases hholds : state.holding worker with
    | none =>
      have hheld := card_held_lt hholds
      obtain ⟨conn, pool, hgot, hnext⟩ :=
        hsound.getOneConnect hinit hmax hholds alive hcreates (.inr (by omega))
      exact ⟨_, hgot, hnext⟩
    | some conn => exact ⟨state, by simp only [Workers.step, Workers.getOneConnect, hholds], hsound⟩
  | close worker => exact hsound.close worker

/-- As many workers as `maxcount` exceeds `initcount` by can hold connections at the same time. -/
theorem run_holding (hinit : 2 * initcount.toNat < 2 ^ 31) (hmax : maxcount.toNat < 2 ^ 31)
    {count : ℕ} (hcount : count ≤ n) (hroom : count ≤ maxcount.toNat - initcount.toNat) :
    ∃ actions : List (WorkerCall n), ∃ state, (∀ action ∈ actions, action.Creates) ∧
      run Workers.step (Workers.start n initcount maxcount) actions = .ok state ∧
      state.Sound initcount maxcount ∧
      ∀ worker, (state.holding worker).isSome ↔ worker.val < count := by
  induction count with
  | zero => exact ⟨[], _, List.forall_mem_nil _, rfl, start_sound hinit, by simp [Workers.start]⟩
  | succ count ih =>
    obtain ⟨actions, state, hcreates, hrun, hsound, hholds⟩ := ih (by omega) (by omega)
    have hheld : state.held.card = count := by
      rw [held, Holders.card_held]
      simp only [hholds]
      rw [Fin.card_filter_val_lt]
      omega
    have hfree : state.holding ⟨count, hcount⟩ = none := by
      rw [← Option.not_isSome_iff_eq_none, hholds]
      simp
    have hnow : (CreateAnswers.mk true true).succeeds = true := rfl
    obtain ⟨conn, pool, hgot, hnext⟩ :=
      hsound.getOneConnect hinit hmax hfree (fun _ ↦ true) hnow (.inr (by omega))
    refine ⟨actions ++ [.getOneConnect ⟨count, hcount⟩ (fun _ ↦ true) ⟨true, true⟩], _, ?_,
      run_append_eq_ok_iff.mpr ⟨state, hrun, run_cons_ok hgot _⟩, hnext, fun worker ↦ ?_⟩
    · exact List.forall_mem_append.mpr ⟨hcreates, List.forall_mem_singleton.mpr rfl⟩
    · by_cases hworker : worker = ⟨count, hcount⟩
      · simp [hworker]
      · have hne : worker.val ≠ count := fun heq ↦ hworker (Fin.ext heq)
        change (Function.update state.holding _ (some conn) worker).isSome = true ↔ _
        rw [Function.update_of_ne hworker, hholds]
        omega

/-- While MySQL accepts every connection, no worker is ever handed the null pointer, whatever the
interleaving and the state of the queued connections, exactly when `maxcount` exceeds `initcount` by
the number of workers. -/
theorem never_null_iff (n : ℕ) (hinit : 2 * initcount.toNat < 2 ^ 31)
    (hmax : maxcount.toNat < 2 ^ 31) :
    (∀ actions : List (WorkerCall n), (∀ action ∈ actions, action.Creates) →
      ∃ final, run Workers.step (Workers.start n initcount maxcount) actions = .ok final) ↔
      n = 0 ∨ n + initcount.toNat ≤ maxcount.toNat := by
  constructor
  · intro hok
    by_contra! hshort
    obtain ⟨actions, state, hcreates, hrun, hsound, hholds⟩ :=
      run_holding hinit hmax (show maxcount.toNat - initcount.toNat ≤ n by omega) le_rfl
    have hheld : state.held.card = maxcount.toNat - initcount.toNat := by
      rw [held, Holders.card_held]
      simp only [hholds]
      rw [Fin.card_filter_val_lt]
      omega
    have hlast : maxcount.toNat - initcount.toNat < n := by omega
    have hfree : state.holding ⟨_, hlast⟩ = none := by
      rw [← Option.not_isSome_iff_eq_none, hholds]
      simp
    have hdead : state.pool.mysqlpool.dropWhile (isDead fun _ ↦ false) = [] := by
      rw [List.dropWhile_eq_nil_iff]
      intro conn hconn
      cases conn with
      | none => exact absurd hconn hsound.nonnull
      | some conn => rfl
    have hnull := hsound.getOneConnect_null hinit hmax hfree ⟨true, true⟩ hdead (by omega)
    have hall : ∀ action ∈ actions ++ [.getOneConnect ⟨_, hlast⟩ (fun _ ↦ false) ⟨true, true⟩],
        action.Creates :=
      List.forall_mem_append.mpr ⟨hcreates, List.forall_mem_singleton.mpr rfl⟩
    obtain ⟨final, hfinal⟩ := hok _ hall
    obtain ⟨middle, hmiddle, hlater⟩ := run_append_eq_ok_iff.mp hfinal
    obtain rfl : state = middle := Except.ok.inj (hrun.symm.trans hmiddle)
    rw [run_cons_error hnull] at hlater
    cases hlater
  · rintro (rfl | hserved) actions hcreates
    · have hstep (state : Workers 0) (action : WorkerCall 0) (_ : True) (_ : True) :
          ∃ next, Workers.step state action = .ok next ∧ True := by
        cases action with
        | getOneConnect worker => exact worker.elim0
        | close worker => exact worker.elim0
      obtain ⟨final, hfinal, -⟩ := Guarded.run_isOk hstep trivial
        (guarded_of_forall_mem (fun _ _ ↦ trivial) (Workers.start 0 initcount maxcount))
      exact ⟨final, hfinal⟩
    · obtain ⟨final, hfinal, -⟩ := Guarded.run_isOk
        (fun _ _ hsound hnow ↦ step_served hinit hmax hserved hsound hnow) (start_sound hinit)
        (guarded_of_forall_mem hcreates _)
      exact ⟨final, hfinal⟩

/-- The settings of the server: the fourteen workers are served. -/
theorem never_null_of_fourteen :
    2 * (14 : UInt32).toNat < 2 ^ 31 ∧ (50 : UInt32).toNat < 2 ^ 31 ∧
      ((∀ actions : List (WorkerCall 14), (∀ action ∈ actions, action.Creates) →
        ∃ final, run Workers.step (Workers.start 14 14 50) actions = .ok final) ↔
        14 = 0 ∨ 14 + (14 : UInt32).toNat ≤ (50 : UInt32).toNat) :=
  ⟨by decide, by decide, never_null_iff 14 (by decide) (by decide)⟩

end Serve

end TradeServers.DeliPoolServer
