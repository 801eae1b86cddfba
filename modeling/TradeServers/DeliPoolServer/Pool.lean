import TradeServers.Library.Execution
import TradeServers.Bytes
import Mathlib.Data.Int.Order.Basic
import Mathlib.Data.List.ReduceOption

/-!
# The connection pool of the pool server

`MysqlPool` counts its connections in `_currentCount`. `createOneConnect` counts a connection when
it succeeds, and the constructor counts every round of its loop once more and queues what it got,
which may be the null pointer. `accounting_iff` says for which settings the books are right in every
reachable state.

`getOneConnect` and `close` each run under `poollock`, so a run is a list of such calls.
-/

set_option autoImplicit false
set_option relaxedAutoImplicit false

namespace TradeServers.DeliPoolServer

open Execution

/-! ### The pool -/

/-- What `createOneConnect` finds: whether `mysql_init` returns a handle, and whether
`mysql_real_connect` succeeds. -/
structure CreateAnswers where
  init : Bool
  connects : Bool

/-- Both succeed. -/
def CreateAnswers.succeeds (answers : CreateAnswers) : Bool := answers.init && answers.connects

/-- The pool: the queue of pointers, where none is the null pointer, the settings and the counter,
with what the surroundings know: the connections that are handed out, how many have been created,
and how many were open whenever `getOneConnect` refused to create one. -/
structure MysqlPool where
  maxCount : UInt32
  mysqlpool : List (Option ℕ)
  currentCount : ℤ
  handedOut : List ℕ
  created : ℕ
  refusals : List ℕ

/-- `mysql_ping` of the null pointer, or a call of `close` with a connection that its caller was not
given. -/
inductive PoolFault
  | nullPing
  | notHandedOut
deriving DecidableEq

namespace MysqlPool

/-- The open connections in the queue. -/
def queued (pool : MysqlPool) : List ℕ := pool.mysqlpool.reduceOption

/-- The number of open connections. -/
def opened (pool : MysqlPool) : ℕ := pool.queued.length + pool.handedOut.length

/-- `MysqlPool::createOneConnect`. -/
def createOneConnect (answers : CreateAnswers) (pool : MysqlPool) : Option ℕ × MysqlPool :=
  if answers.init then
    if answers.connects then
      (some pool.created,
        { pool with
          created := pool.created + 1
          currentCount := addInt32 pool.currentCount 1 })
    else (none, pool)
  else (none, pool)

/-- A round of the constructor's loop. -/
def initialRound (answers : CreateAnswers) (pool : MysqlPool) : MysqlPool :=
  let created := pool.createOneConnect answers
  { created.2 with
    currentCount := addInt32 created.2.currentCount 1
    mysqlpool := created.2.mysqlpool ++ [created.1] }

/-- The constructor's loop after some rounds. -/
def initialRounds (answers : ℕ → CreateAnswers) (pool : MysqlPool) : ℕ → MysqlPool
  | 0 => pool
  | rounds + 1 => (initialRounds answers pool rounds).initialRound (answers rounds)

/-- `MysqlPool::MysqlPool`. -/
def construct (initcount maxcount : UInt32) (answers : ℕ → CreateAnswers) : MysqlPool :=
  initialRounds answers ⟨maxcount, [], 0, [], 0, []⟩ (toInt32 initcount.toNat).toNat

/-- The loop of `getOneConnect` that closes dead connections at the front of the queue. -/
def evict (alive : ℕ → Bool) : List (Option ℕ) → ℤ → Except PoolFault (List (Option ℕ) × ℤ)
  | [], count => .ok ([], count)
  | none :: _, _ => .error .nullPing
  | some front :: rest, count =>
    if alive front then .ok (some front :: rest, count)
    else evict alive rest (addInt32 count (-1))

/-- The part of `getOneConnect` for an empty queue. -/
def createOrRefuse (answers : CreateAnswers) (pool : MysqlPool) : Option ℕ × MysqlPool :=
  if pool.currentCount < toInt32 pool.maxCount.toNat then pool.createOneConnect answers
  else (none, { pool with refusals := pool.refusals ++ [pool.opened] })

/-- `MysqlPool::getOneConnect`. -/
def getOneConnect (alive : ℕ → Bool) (answers : CreateAnswers) (pool : MysqlPool) :
    Except PoolFault (Option ℕ × MysqlPool) :=
  if pool.mysqlpool ≠ [] then
    match evict alive pool.mysqlpool pool.currentCount with
    | .error fault => .error fault
    | .ok ([], count) =>
      .ok ({ pool with mysqlpool := [], currentCount := count }.createOrRefuse answers)
    | .ok (conn :: rest, count) =>
      .ok (conn, { pool with mysqlpool := rest, currentCount := count })
  else .ok (pool.createOrRefuse answers)

/-- `MysqlPool::close`. -/
def close (conn : Option ℕ) (pool : MysqlPool) : MysqlPool :=
  match conn with
  | none => pool
  | some conn => { pool with mysqlpool := pool.mysqlpool ++ [some conn] }

/-- The caller has what `getOneConnect` returned. -/
def handOut (got : Option ℕ × MysqlPool) : MysqlPool :=
  { got.2 with handedOut := got.1.toList ++ got.2.handedOut }

end MysqlPool

/-- A call of `getOneConnect`, with the connections that answer `mysql_ping` and with what happens
to the creation of a new one, or a call of `close`. -/
inductive PoolCall
  | getOneConnect (alive : ℕ → Bool) (answers : CreateAnswers)
  | close (conn : Option ℕ)

/-- The effect of a call, which a caller of `close` makes with what it was handed out. -/
def poolStep (pool : MysqlPool) : PoolCall → Except PoolFault MysqlPool
  | .getOneConnect alive answers =>
    (pool.getOneConnect alive answers).map MysqlPool.handOut
  | .close none => .ok (pool.close none)
  | .close (some conn) =>
    if conn ∈ pool.handedOut then
      .ok { pool.close (some conn) with handedOut := pool.handedOut.erase conn }
    else .error .notHandedOut

/-! ### The books of the pool -/

/-- The counter is the number of open connections and at most the larger setting, the queue holds no
null pointer, and a creation was refused only when as many connections as allowed were open. -/
structure Accounted (initcount : UInt32) (pool : MysqlPool) : Prop where
  counted : pool.currentCount = pool.opened
  bounded : pool.currentCount ≤ (max initcount.toNat pool.maxCount.toNat : ℕ)
  nonnull : none ∉ pool.mysqlpool
  refused : ∀ opened ∈ pool.refusals, pool.maxCount.toNat ≤ opened

/-- The same with the bound that the steps keep: at most `maxCount` connections are open. -/
structure Balanced (pool : MysqlPool) : Prop where
  counted : pool.currentCount = pool.opened
  bounded : pool.opened ≤ pool.maxCount.toNat
  nonnull : none ∉ pool.mysqlpool
  refused : ∀ opened ∈ pool.refusals, pool.maxCount.toNat ≤ opened
  small : pool.maxCount.toNat < 2 ^ 31

section Steps

variable {pool next : MysqlPool} {call : PoolCall} {queue rest : List (Option ℕ)}
  {count left : ℤ}

theorem Balanced.accounted (hbalanced : Balanced pool) (initcount : UInt32) :
    Accounted initcount pool :=
  { counted := hbalanced.counted
    bounded := by
      rw [hbalanced.counted, Int.ofNat_le]
      exact hbalanced.bounded.trans (Nat.le_max_right _ _)
    nonnull := hbalanced.nonnull
    refused := hbalanced.refused }

/-- The eviction loop takes connections off the front of a queue without null pointers, and counts
them. -/
theorem evict_eq_ok (alive : ℕ → Bool) (hnonnull : none ∉ queue) (hlow : (queue.length : ℤ) ≤ count)
    (hhigh : count < 2 ^ 31) : ∃ rest, MysqlPool.evict alive queue count =
      .ok (rest, count - (queue.length - rest.length)) ∧ rest <:+ queue := by
  induction queue generalizing count with
  | nil => exact ⟨[], by simp [MysqlPool.evict], List.suffix_refl _⟩
  | cons front queue ih =>
    cases front with
    | none => exact absurd List.mem_cons_self hnonnull
    | some front =>
      unfold MysqlPool.evict
      split_ifs with halive
      · exact ⟨some front :: queue, by simp, List.suffix_refl _⟩
      · rw [List.length_cons, Nat.cast_add, Nat.cast_one] at hlow
        rw [addInt32_of_bounds (by omega) (by omega)]
        obtain ⟨rest, hevict, hsuffix⟩ := ih (fun hmem ↦ hnonnull (List.mem_cons_of_mem _ hmem))
          (show (queue.length : ℤ) ≤ count + -1 by omega) (by omega)
        refine ⟨rest, ?_, hsuffix.trans (List.suffix_cons _ _)⟩
        rw [hevict, List.length_cons]
        congr 2
        omega

theorem poolStep_getOneConnect (alive : ℕ → Bool) (answers : CreateAnswers) :
    poolStep pool (.getOneConnect alive answers) =
      (pool.getOneConnect alive answers).map MysqlPool.handOut := rfl

theorem length_reduceOption (hnonnull : none ∉ queue) : queue.reduceOption.length = queue.length :=
  List.reduceOption_length_eq_iff.mpr fun _ hconn ↦
    Option.isSome_iff_ne_none.mpr (ne_of_mem_of_not_mem hconn hnonnull)

/-- A new connection is handed out while fewer than allowed are open, and only then. -/
theorem Balanced.createOrRefuse (hbalanced : Balanced pool) (answers : CreateAnswers) :
    Balanced (.handOut (pool.createOrRefuse answers)) := by
  have hsmall := hbalanced.small
  have hcounted := hbalanced.counted
  have hmax : toInt32 pool.maxCount.toNat = pool.maxCount.toNat := toInt32_of_lt hsmall
  unfold MysqlPool.createOrRefuse
  split_ifs with hroom
  · rw [hmax, hcounted, Int.ofNat_lt] at hroom
    unfold MysqlPool.createOneConnect
    split_ifs
    · have hopened : (MysqlPool.handOut (some pool.created, { pool with
          created := pool.created + 1
          currentCount := addInt32 pool.currentCount 1 })).opened = pool.opened + 1 := rfl
      refine ⟨?_, ?_, hbalanced.nonnull, hbalanced.refused, hsmall⟩
      · rw [hopened]
        change addInt32 pool.currentCount 1 = _
        rw [addInt32_of_bounds (by omega) (by omega), hcounted, Nat.cast_succ]
      · rw [hopened]
        exact hroom
    · exact ⟨hcounted, hbalanced.bounded, hbalanced.nonnull, hbalanced.refused, hsmall⟩
    · exact ⟨hcounted, hbalanced.bounded, hbalanced.nonnull, hbalanced.refused, hsmall⟩
  · rw [hmax, hcounted, Int.ofNat_lt] at hroom
    refine ⟨hcounted, hbalanced.bounded, hbalanced.nonnull, ?_, hsmall⟩
    refine List.forall_mem_append.mpr ⟨hbalanced.refused, List.forall_mem_singleton.mpr ?_⟩
    exact Nat.le_of_not_lt hroom

/-- The queue of a balanced pool may be cut to a suffix, when the counter follows. -/
theorem Balanced.suffix (hbalanced : Balanced pool) (hsuffix : rest <:+ pool.mysqlpool) :
    Balanced { pool with
      mysqlpool := rest
      currentCount := pool.currentCount - (pool.mysqlpool.length - rest.length) } := by
  have hnonnull : none ∉ rest := fun hnone ↦ hbalanced.nonnull (hsuffix.subset hnone)
  have hlength := hsuffix.length_le
  have hcounted := hbalanced.counted
  have hbounded := hbalanced.bounded
  have hqueue := length_reduceOption hbalanced.nonnull
  have hrest := length_reduceOption hnonnull
  refine ⟨?_, ?_, hnonnull, hbalanced.refused, hbalanced.small⟩
  · unfold MysqlPool.opened MysqlPool.queued at hcounted ⊢
    dsimp only
    omega
  · unfold MysqlPool.opened MysqlPool.queued at hbounded ⊢
    dsimp only
    omega

theorem getOneConnect_of_empty (hempty : pool.mysqlpool = []) {alive : ℕ → Bool}
    {answers : CreateAnswers} :
    pool.getOneConnect alive answers = .ok (pool.createOrRefuse answers) :=
  if_neg fun hne ↦ hne hempty

theorem Balanced.getOneConnect (hbalanced : Balanced pool) (alive : ℕ → Bool)
    (answers : CreateAnswers) :
    ∃ got, pool.getOneConnect alive answers = .ok got ∧ Balanced (.handOut got) := by
  have hsmall := hbalanced.small
  have hlow : (pool.mysqlpool.length : ℤ) ≤ pool.currentCount := by
    rw [hbalanced.counted, MysqlPool.opened, MysqlPool.queued,
      length_reduceOption hbalanced.nonnull]
    omega
  have hhigh : pool.currentCount < 2 ^ 31 := by
    have hbounded := hbalanced.bounded
    rw [hbalanced.counted]
    omega
  unfold MysqlPool.getOneConnect
  split_ifs with hempty
  · obtain ⟨rest, hevict, hsuffix⟩ := evict_eq_ok alive hbalanced.nonnull hlow hhigh
    have hcut := hbalanced.suffix hsuffix
    rw [hevict]
    cases rest with
    | nil => exact ⟨_, rfl, hcut.createOrRefuse answers⟩
    | cons conn rest =>
      cases conn with
      | none => exact absurd (hsuffix.subset List.mem_cons_self) hbalanced.nonnull
      | some conn =>
        refine ⟨_, rfl, ?_⟩
        have hopened : MysqlPool.opened (.handOut (some conn, { pool with
              mysqlpool := rest
              currentCount := pool.currentCount -
                (pool.mysqlpool.length - (some conn :: rest).length) })) =
            MysqlPool.opened { pool with
              mysqlpool := some conn :: rest
              currentCount := pool.currentCount -
                (pool.mysqlpool.length - (some conn :: rest).length) } := by
          change rest.reduceOption.length + (pool.handedOut.length + 1) =
            rest.reduceOption.length + 1 + pool.handedOut.length
          omega
        exact ⟨hopened ▸ hcut.counted, hopened ▸ hcut.bounded,
          fun hnone ↦ hcut.nonnull (List.mem_cons_of_mem _ hnone), hcut.refused, hcut.small⟩
  · exact ⟨_, rfl, hbalanced.createOrRefuse answers⟩

theorem Balanced.close (hbalanced : Balanced pool) {conn : ℕ} (hconn : conn ∈ pool.handedOut) :
    Balanced { pool.close (some conn) with handedOut := pool.handedOut.erase conn } := by
  have hopened : MysqlPool.opened
      { pool.close (some conn) with handedOut := pool.handedOut.erase conn } = pool.opened := by
    have hpos : 0 < pool.handedOut.length := List.length_pos_of_mem hconn
    change (pool.mysqlpool ++ [some conn]).reduceOption.length +
      (pool.handedOut.erase conn).length =
        pool.mysqlpool.reduceOption.length + pool.handedOut.length
    rw [List.reduceOption_append, List.length_append, List.length_erase_of_mem hconn]
    change _ + 1 + _ = _
    omega
  refine ⟨hopened ▸ hbalanced.counted, hopened ▸ hbalanced.bounded, ?_, hbalanced.refused,
    hbalanced.small⟩
  intro hnone
  rcases List.mem_append.mp hnone with hold | hlast
  · exact hbalanced.nonnull hold
  · cases List.mem_singleton.mp hlast

/-- Every call keeps the books. -/
theorem balanced_step (hbalanced : Balanced pool) (hstep : poolStep pool call = .ok next) :
    Balanced next := by
  cases call with
  | getOneConnect alive answers =>
    obtain ⟨got, hgot, hnext⟩ := hbalanced.getOneConnect alive answers
    rw [poolStep_getOneConnect, hgot] at hstep
    exact Except.ok.inj hstep ▸ hnext
  | close conn =>
    cases conn with
    | none => exact Except.ok.inj hstep ▸ hbalanced
    | some conn =>
      unfold poolStep at hstep
      dsimp only at hstep
      split_ifs at hstep with hconn
      exact Except.ok.inj hstep ▸ hbalanced.close hconn

end Steps

/-! ### The constructor -/

section Constructor

variable {answers : ℕ → CreateAnswers} {initcount maxcount : UInt32} {pool : MysqlPool}

/-- After some rounds of the constructor's loop: a pointer is queued for each round, and the counter
has counted every open connection twice and every null pointer once, modulo 2³². -/
theorem initialRounds_count (answers : ℕ → CreateAnswers) (maxcount : UInt32) (rounds : ℕ) :
    ∃ pool, MysqlPool.initialRounds answers ⟨maxcount, [], 0, [], 0, []⟩ rounds = pool ∧
      pool.mysqlpool.length = rounds ∧ pool.handedOut = [] ∧
      pool.currentCount % 2 ^ 32 = ((rounds : ℤ) + pool.queued.length) % 2 ^ 32 := by
  have hadd (count : ℤ) : addInt32 count 1 % 2 ^ 32 = (count + 1) % 2 ^ 32 := Int.bmod_emod
  induction rounds with
  | zero => exact ⟨_, rfl, rfl, rfl, rfl⟩
  | succ rounds ih =>
    obtain ⟨pool, hpool, hlength, hhanded, hcount⟩ := ih
    unfold MysqlPool.initialRounds
    rw [hpool]
    refine ⟨_, rfl, ?_⟩
    unfold MysqlPool.initialRound MysqlPool.createOneConnect
    dsimp only
    unfold MysqlPool.queued at hcount ⊢
    split_ifs
    · have hone := hadd pool.currentCount
      have htwo := hadd (addInt32 pool.currentCount 1)
      refine ⟨by simp [hlength], hhanded, ?_⟩
      dsimp only
      rw [List.reduceOption_append, List.length_append]
      change _ = ((rounds + 1 : ℕ) + ((_ + 1 : ℕ) : ℤ)) % 2 ^ 32
      omega
    · have hone := hadd pool.currentCount
      refine ⟨by simp [hlength], hhanded, ?_⟩
      dsimp only
      rw [List.reduceOption_append, List.length_append]
      change _ = ((rounds + 1 : ℕ) + ((_ + 0 : ℕ) : ℤ)) % 2 ^ 32
      omega
    · have hone := hadd pool.currentCount
      refine ⟨by simp [hlength], hhanded, ?_⟩
      dsimp only
      rw [List.reduceOption_append, List.length_append]
      change _ = ((rounds + 1 : ℕ) + ((_ + 0 : ℕ) : ℤ)) % 2 ^ 32
      omega

/-- The books of a new pool are right only when the constructor's loop has no round. -/
theorem no_round_of_accounted
    (haccounted : Accounted initcount (.construct initcount maxcount answers)) :
    (toInt32 initcount.toNat).toNat = 0 := by
  have hbound := toInt32_lt initcount.toNat
  obtain ⟨pool, hpool, hlength, hhanded, hcount⟩ :=
    initialRounds_count answers maxcount (toInt32 initcount.toNat).toNat
  unfold MysqlPool.construct at haccounted
  rw [hpool] at haccounted
  have hcounted := haccounted.counted
  have hqueued : pool.queued.length = pool.mysqlpool.length :=
    length_reduceOption haccounted.nonnull
  rw [hqueued, hlength] at hcount
  rw [hcounted, MysqlPool.opened, hhanded, hqueued, hlength, List.length_nil] at hcount
  omega

/-- A pool whose `maxCount` is read as a negative number refuses the first connection. -/
theorem small_of_accounted (hempty : (toInt32 initcount.toNat).toNat = 0)
    (haccounted : ∀ calls final,
      run poolStep (.construct initcount maxcount answers) calls = .ok final →
        Accounted initcount final) : maxcount.toNat < 2 ^ 31 := by
  by_contra hlarge
  have hneg : toInt32 maxcount.toNat < 0 :=
    toInt32_neg_of_high (Nat.le_of_not_lt hlarge) maxcount.toNat_lt
  have hconstruct : MysqlPool.construct initcount maxcount answers =
      ⟨maxcount, [], 0, [], 0, []⟩ := by
    unfold MysqlPool.construct
    rw [hempty]
    rfl
  have hstep : poolStep ⟨maxcount, [], 0, [], 0, []⟩
      (.getOneConnect (fun _ ↦ true) ⟨true, true⟩) = .ok ⟨maxcount, [], 0, [], 0, [0]⟩ := by
    have hrefuse : ¬ (0 : ℤ) < toInt32 maxcount.toNat := Int.not_lt.mpr hneg.le
    rw [poolStep_getOneConnect, getOneConnect_of_empty rfl]
    unfold MysqlPool.createOrRefuse
    dsimp only
    rw [if_neg hrefuse]
    rfl
  have hrefused := (haccounted [.getOneConnect (fun _ ↦ true) ⟨true, true⟩] _
    (by rw [hconstruct, run_cons_ok hstep]; rfl)).refused 0 List.mem_cons_self
  dsimp only at hrefused
  omega

/-- For all settings and any outcomes in the constructor: the books are right in every reachable
state exactly when the constructor creates no connection and `maxCount` fits an `int`. -/
theorem accounting_iff (initcount maxcount : UInt32) (answers : ℕ → CreateAnswers) :
    (∀ calls final, run poolStep (.construct initcount maxcount answers) calls = .ok final →
      Accounted initcount final) ↔
      (initcount.toNat = 0 ∨ 2 ^ 31 ≤ initcount.toNat) ∧ maxcount.toNat < 2 ^ 31 := by
  have hloop : (toInt32 initcount.toNat).toNat = 0 ↔
      initcount.toNat = 0 ∨ 2 ^ 31 ≤ initcount.toNat := by
    have hword := initcount.toNat_lt
    by_cases hlow : initcount.toNat < 2 ^ 31
    · rw [toInt32_of_lt hlow]
      omega
    · have hneg := toInt32_neg_of_high (Nat.le_of_not_lt hlow) hword
      omega
  rw [← hloop]
  constructor
  · intro haccounted
    have hempty := no_round_of_accounted (haccounted [] _ rfl)
    exact ⟨hempty, small_of_accounted hempty haccounted⟩
  · rintro ⟨hempty, hsmall⟩ calls final hrun
    have hstart : Balanced (.construct initcount maxcount answers) := by
      unfold MysqlPool.construct
      rw [hempty]
      exact ⟨rfl, Nat.zero_le _, List.not_mem_nil, List.forall_mem_nil _, hsmall⟩
    exact (run_invariant (fun _ _ _ ↦ balanced_step) hstart hrun).accounted initcount

end Constructor

/-- The settings of the server, with all connections of the constructor successful: the pool counts
28 open connections where there are 14. -/
theorem fourteen_counted_twice :
    ¬ Accounted 14 (.construct 14 50 fun _ ↦ ⟨true, true⟩) := by
  intro haccounted
  exact absurd haccounted.counted (by decide +kernel)

end TradeServers.DeliPoolServer
