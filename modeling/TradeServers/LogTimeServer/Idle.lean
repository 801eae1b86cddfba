import TradeServers.LogTimeServer.Pool

/-!
# Idle connections of the pool

`scannerConnectionTask` looks at the front of the queue only and stops at the first connection that
has not been idle for long enough, because the front has been idle longest. That is so as long as
the clock does not run backwards: the queue never holds other times than those it held at first and
those that were read since, in that order (`run_sublist`). A pass therefore is right about the bound
that it compares with (`scanRight_idleBound`). The bound is a product of two values of `int`, and
`run_idle_order` asks that it does not overflow where it is used.
-/

set_option autoImplicit false
set_option relaxedAutoImplicit false

namespace TradeServers.LogTimeServer.Pool

open Execution

variable {config : Config} {pool next : State} {dead : ℕ → Bool} {clock : ℕ → ℤ}

/-! ### Times -/

/-- The times in the queue, from front to back. -/
def State.alivetimes (pool : State) : List ℤ := pool.queue.map Connection.alivetime

/-- The times at which sections call `refreshAliveTime`. -/
def Action.refreshTimes : Action → List ℤ
  | .produce now => [now]
  | .borrow _ => []
  | .giveBack _ now => [now]
  | .scan _ _ => []

/-- The times at which the constructor calls `refreshAliveTime`. -/
def constructTimes (config : Config) (connect : ℕ → Bool) (now : ℕ → ℤ) : List ℤ :=
  ((List.range config.initCount.toNat).filter connect).map now

/-- The queue is ordered by the times at which its connections became idle. -/
def IdleOrder (pool : State) : Prop :=
  pool.queue.Pairwise fun first second ↦ first.alivetime ≤ second.alivetime

theorem idleOrder_iff : IdleOrder pool ↔ pool.alivetimes.Pairwise (· ≤ ·) := List.pairwise_map.symm

/-! ### Passes of the scanner -/

/-- A pass has reclaimed connections that were idle for at least the bound, one at each check, and
unless it has reached the initial count it has left none that was at its last check. -/
def ScanRight (bound : ℤ) (config : Config) (dead : ℕ → Bool) (clock : ℕ → ℤ) (pool next : State) :
    Prop :=
  ∃ reclaimed, (pool.queue.dropWhile fun front ↦ dead front.id) = reclaimed ++ next.queue ∧
    (∀ position connection, reclaimed[position]? = some connection →
      bound ≤ clock position - connection.alivetime) ∧
    (next.currentCount ≤ config.initCount ∨
      ∀ connection ∈ next.queue, clock reclaimed.length - connection.alivetime < bound)

/-- The product does not overflow, or no connection is checked: without the dead ones at the front
there are no more connections than the initial count. -/
def BoundFits (config : Config) (dead : ℕ → Bool) (pool : State) : Prop :=
  -2 ^ 31 ≤ config.maxIdleTime * 1000 ∧ config.maxIdleTime * 1000 < 2 ^ 31 ∨
    pool.currentCount - (pool.queue.takeWhile fun front ↦ dead front.id).length ≤ config.initCount

/-- The reclaim loop stops at the initial count or at a connection that was not idle for long
enough. -/
theorem reclaim_spec (queue : List Connection) :
    ∀ (check : ℕ) (pool : State), pool.queue = queue →
      reclaim config clock check queue pool = .ok next →
        ∃ reclaimed, queue = reclaimed ++ next.queue ∧
          (∀ position connection, reclaimed[position]? = some connection →
            config.idleBound ≤ clock (check + position) - connection.alivetime) ∧
          (next.currentCount ≤ config.initCount ∨ ∃ front rest, next.queue = front :: rest ∧
            clock (check + reclaimed.length) - front.alivetime < config.idleBound) := by
  induction queue with
  | nil =>
    intro check pool hqueue hreclaim
    rw [reclaim] at hreclaim
    split_ifs at hreclaim with hmore
    obtain rfl := Except.ok.inj hreclaim
    exact ⟨[], hqueue.symm, by simp, .inl (by omega)⟩
  | cons front rest ih =>
    intro check pool hqueue hreclaim
    rw [reclaim] at hreclaim
    split_ifs at hreclaim with hmore hidle
    · obtain ⟨reclaimed, hrest, hbound, hstop⟩ :=
        ih (check + 1) (pool.close front rest) rfl hreclaim
      refine ⟨front :: reclaimed, by rw [hrest, List.cons_append], ?_, ?_⟩
      · rintro (_ | position) connection hconnection
        · obtain rfl := Option.some.inj hconnection
          exact hidle
        · have hlater := hbound position connection hconnection
          rwa [Nat.add_right_comm] at hlater
      · rwa [List.length_cons, ← Nat.add_assoc, Nat.add_right_comm]
    · obtain rfl := Except.ok.inj hreclaim
      exact ⟨[], hqueue.symm, by simp, .inr ⟨front, rest, hqueue, Int.not_le.mp hidle⟩⟩
    · obtain rfl := Except.ok.inj hreclaim
      exact ⟨[], hqueue.symm, by simp, .inl (Int.not_lt.mp hmore)⟩

/-- Each eviction takes one off the counter. -/
theorem currentCount_evictDead (dead : ℕ → Bool) (queue : List Connection) : ∀ pool : State,
    (evictDead dead queue pool).currentCount =
      pool.currentCount - (queue.takeWhile fun front ↦ dead front.id).length := by
  induction queue with
  | nil =>
    intro pool
    rw [evictDead, List.takeWhile_nil, List.length_nil, Int.natCast_zero, Int.sub_zero]
  | cons front rest ih =>
    intro pool
    rw [evictDead, List.takeWhile_cons]
    split_ifs with hdead
    · rw [ih, List.length_cons]
      simp only [State.close]
      push_cast
      omega
    · rw [List.length_nil, Int.natCast_zero, Int.sub_zero]

/-- What is left behind the dead connections and some others is a part of the queue. -/
theorem sublist_of_dropWhile {queue taken left : List Connection}
    (hqueue : (queue.dropWhile fun front ↦ dead front.id) = taken ++ left) :
    left.Sublist queue := by
  have hkept : taken ++ left <:+ queue := hqueue ▸ List.dropWhile_suffix _
  exact ((List.suffix_append taken left).trans hkept).sublist

/-- In an ordered queue a pass is right about the bound that it compares with. -/
theorem scanRight_idleBound (horder : IdleOrder pool)
    (hscan : step config pool (.scan dead clock) = .ok next) :
    ScanRight config.idleBound config dead clock pool next := by
  have hleft := (evictDead_spec dead pool.queue pool rfl).1
  obtain ⟨reclaimed, hqueue, hbound, hstop⟩ := reclaim_spec _ 0 _ rfl hscan
  simp only [Nat.zero_add] at hbound hstop
  rw [hleft] at hqueue
  refine ⟨reclaimed, hqueue, hbound, hstop.imp_right ?_⟩
  rintro ⟨front, rest, hnext, hfresh⟩ connection hconnection
  have hnextOrder := horder.sublist (sublist_of_dropWhile hqueue)
  rw [hnext] at hconnection hnextOrder
  -- whoever is behind the front became idle later
  have hlater : front.alivetime ≤ connection.alivetime := by
    rcases List.mem_cons.mp hconnection with rfl | hrest
    · exact le_rfl
    · exact (List.pairwise_cons.mp hnextOrder).1 connection hrest
  omega

/-- Where the product does not overflow, or is not used, that is the bound of the settings. -/
theorem scanRight_of_fits (horder : IdleOrder pool) (hfits : BoundFits config dead pool)
    (hscan : step config pool (.scan dead clock) = .ok next) :
    ScanRight (config.maxIdleTime * 1000) config dead clock pool next := by
  rcases hfits with ⟨hlow, hhigh⟩ | hfew
  · have hbound : config.idleBound = config.maxIdleTime * 1000 := bmod_word hlow hhigh
    rw [← hbound]
    exact scanRight_idleBound horder hscan
  · have hleft := (evictDead_spec dead pool.queue pool rfl).1
    rw [← currentCount_evictDead dead pool.queue pool] at hfew
    have hscan : reclaim config clock 0 (evictDead dead pool.queue pool).queue
        (evictDead dead pool.queue pool) = .ok next := hscan
    have hnext : evictDead dead pool.queue pool = next := by
      unfold reclaim at hscan
      split at hscan
      · rw [if_neg (Int.not_lt.mpr hfew)] at hscan
        exact Except.ok.inj hscan
      · rw [if_neg (Int.not_lt.mpr hfew)] at hscan
        exact Except.ok.inj hscan
    rw [← hnext]
    exact ⟨[], hleft.symm, by simp, .inl hfew⟩

/-! ### Runs -/

/-- A section leaves times that were there, in their order, and behind them the one it has read. -/
theorem step_sublist {action : Action} (hstep : step config pool action = .ok next) :
    next.alivetimes.Sublist (pool.alivetimes ++ action.refreshTimes) := by
  unfold State.alivetimes
  cases action with
  | produce now =>
    obtain rfl := Except.ok.inj hstep
    unfold produceConnectionTask State.add Action.refreshTimes
    split_ifs <;> simp
  | borrow dead =>
    have hleft := (evictDead_spec dead pool.queue pool rfl).1
    have hborrow : getOneConnect dead pool = .ok next := hstep
    unfold getOneConnect at hborrow
    rw [Action.refreshTimes, List.append_nil]
    split_ifs at hborrow
    · obtain rfl := Except.ok.inj hborrow
      exact List.Sublist.refl _
    · dsimp only at hborrow
      split at hborrow
      · cases hborrow
      · rename_i front rest hsome
        obtain rfl := Except.ok.inj hborrow
        have hbehind : (pool.queue.dropWhile fun front ↦ dead front.id) = [front] ++ rest :=
          hleft.symm.trans hsome
        exact (sublist_of_dropWhile hbehind).map _
  | giveBack index now =>
    obtain rfl := Except.ok.inj hstep
    unfold Pool.giveBack Action.refreshTimes
    split <;> simp
  | scan dead clock =>
    have hleft := (evictDead_spec dead pool.queue pool rfl).1
    obtain ⟨reclaimed, hqueue, -, -⟩ := reclaim_spec _ 0 _ rfl hstep
    rw [hleft] at hqueue
    rw [Action.refreshTimes, List.append_nil]
    exact (sublist_of_dropWhile hqueue).map _

/-- The queue of a run holds times that it held at first and times that were read since, in that
order. -/
theorem run_sublist {actions : List Action} {final : State}
    (hrun : run (step config) pool actions = .ok final) :
    final.alivetimes.Sublist (pool.alivetimes ++ actions.flatMap Action.refreshTimes) := by
  have hpreserved : ∀ (earlier : List Action) (state : State) (action : Action) (next : State),
      state.alivetimes.Sublist (pool.alivetimes ++ earlier.flatMap Action.refreshTimes) → True →
        step config state action = .ok next →
          next.alivetimes.Sublist
            (pool.alivetimes ++ (earlier ++ [action]).flatMap Action.refreshTimes) := by
    intro earlier state action next hearlier _ hstep
    rw [List.flatMap_append, List.flatMap_singleton, ← List.append_assoc]
    exact (step_sublist hstep).trans (hearlier.append_right _)
  have hguarded : Guarded (step config) (fun _ _ ↦ True) pool actions :=
    guarded_of_forall_mem (fun _ _ ↦ trivial) pool
  have hstart : pool.alivetimes.Sublist
      (pool.alivetimes ++ List.flatMap Action.refreshTimes []) := by simp
  exact Guarded.run_history hpreserved hstart hguarded hrun

/-- The constructor queues its connections in the order in which it has made them. -/
theorem alivetimes_initial (connect : ℕ → Bool) (now : ℕ → ℤ) (count : ℕ) :
    (initial connect now count).alivetimes = ((List.range count).filter connect).map now := by
  induction count with
  | zero => rfl
  | succ count ih =>
    unfold initial
    dsimp only
    rw [List.range_succ, List.filter_append, List.map_append, ← ih]
    split_ifs with hconnect
    · simp [State.alivetimes, State.add, hconnect]
    · simp [State.alivetimes, hconnect]

theorem alivetimes_construct {connect : ℕ → Bool} {now : ℕ → ℤ}
    (hconstruct : construct config connect now = some pool) :
    pool.alivetimes = constructTimes config connect now := by
  unfold construct at hconstruct
  dsimp only at hconstruct
  split_ifs at hconstruct
  obtain rfl := Option.some.inj hconstruct
  exact alivetimes_initial connect now config.initCount.toNat

/-- In every run of a pool in which `refreshAliveTime` reads a clock that does not run backwards,
the queue is ordered by the times at which its connections became idle. Every pass of the scanner
behind it that meets no empty queue, and in which `_maxIdleTime * 1000` does not overflow or is not
used, then has reclaimed connections only that were idle for that long, and leaves none that was,
or no more connections than the initial count. -/
theorem run_idle_order (config : Config) (connect : ℕ → Bool) (now : ℕ → ℤ) (actions : List Action)
    (pool final : State) (hconstruct : construct config connect now = some pool)
    (hclock : (constructTimes config connect now ++
      actions.flatMap Action.refreshTimes).Pairwise (· ≤ ·))
    (hrun : run (step config) pool actions = .ok final) :
    IdleOrder final ∧ ∀ dead clock next, BoundFits config dead final →
      step config final (.scan dead clock) = .ok next →
        ScanRight (config.maxIdleTime * 1000) config dead clock final next := by
  have horder : IdleOrder final := by
    rw [← alivetimes_construct hconstruct] at hclock
    exact idleOrder_iff.mpr (hclock.sublist (run_sublist hrun))
  exact ⟨horder, fun dead clock next hfits hscan ↦ scanRight_of_fits horder hfits hscan⟩

/-- A run in which a second connection is produced and the first comes back. -/
def idleRun : List Action := [.borrow fun _ ↦ false, .produce 3, .giveBack 0 5]

/-- The pool behind that run. -/
def idlePool : State := ⟨[⟨1, 3⟩, ⟨0, 5⟩], [], 2, 2, []⟩

theorem idlePool_idle_order :
    IdleOrder idlePool ∧ ScanRight (60 * 1000) smallConfig (fun _ ↦ false) (fun _ ↦ 70000) idlePool
      ⟨[⟨0, 5⟩], [], 1, 2, [1]⟩ := by
  obtain ⟨horder, hscan⟩ := run_idle_order smallConfig (fun _ ↦ true) (fun _ ↦ 0) idleRun smallPool
    idlePool construct_smallPool (by decide) rfl
  exact ⟨horder, hscan (fun _ ↦ false) (fun _ ↦ 70000) _ (.inl (by decide)) rfl⟩

/-- One initial connection, at most two, and an idle time whose product with 1000 overflows. -/
def longConfig : Config := ⟨1, 2, 2147484⟩

/-- With these settings a connection is reclaimed that was idle for two units. -/
theorem overflow_reclaims_early :
    construct longConfig (fun _ ↦ true) (fun _ ↦ 0) = some smallPool ∧
      (constructTimes longConfig (fun _ ↦ true) (fun _ ↦ 0) ++
        idleRun.flatMap Action.refreshTimes).Pairwise (· ≤ ·) ∧
      run (step longConfig) smallPool idleRun = .ok idlePool ∧
      step longConfig idlePool (.scan (fun _ ↦ false) fun _ ↦ 5) =
        .ok ⟨[⟨0, 5⟩], [], 1, 2, [1]⟩ ∧
      ¬ ScanRight (longConfig.maxIdleTime * 1000) longConfig (fun _ ↦ false) (fun _ ↦ 5) idlePool
        ⟨[⟨0, 5⟩], [], 1, 2, [1]⟩ := by
  refine ⟨rfl, by decide, rfl, rfl, ?_⟩
  rintro ⟨reclaimed, hqueue, hbound, -⟩
  have hfirst : [⟨1, 3⟩] ++ [⟨0, 5⟩] = reclaimed ++ [(⟨0, 5⟩ : Connection)] := hqueue
  obtain rfl := List.append_cancel_right hfirst
  exact absurd (hbound 0 ⟨1, 3⟩ rfl) (by decide)

end TradeServers.LogTimeServer.Pool
