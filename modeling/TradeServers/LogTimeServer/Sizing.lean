import TradeServers.LogTimeServer.Wakeups

/-!
# How many connections the workers need

A worker holds at most one connection at a time. When the pool was constructed with all its initial
connections, there are no more workers than those, and no connection dies, then neither the scanner
nor a borrower ever evaluates `front()` of an empty queue, and a worker that asks for a connection
finds one in the queue without waiting (`capacity`).
-/

set_option autoImplicit false
set_option relaxedAutoImplicit false

namespace TradeServers.LogTimeServer.Sizing

open Execution Pool

variable {config : Config} {workers : ℕ}

/-- All connections in the queue answer. -/
def Alive (dead : ℕ → Bool) (pool : State) : Prop :=
  ∀ connection ∈ pool.queue, dead connection.id = false

/-- A connection is borrowed by a worker that has none, and no connection is dead when it is looked
at. -/
def Served (workers : ℕ) (pool : State) : Action → Prop
  | .borrow dead => pool.borrowed.length < workers ∧ Alive dead pool
  | .scan dead _ => Alive dead pool
  | _ => True

/-- The pool keeps its initial connections, and each worker has at most one of them. -/
structure Sized (config : Config) (workers : ℕ) (pool : State) : Prop where
  accounted : Accounted pool
  kept : config.initCount ≤ pool.currentCount
  borrowers : pool.borrowed.length ≤ workers

/-- A worker without a connection finds one in the queue. -/
theorem Sized.queue_ne_nil {pool : State} (hsized : Sized config workers pool)
    (hworkers : (workers : ℤ) ≤ config.initCount) (hfree : pool.borrowed.length < workers) :
    pool.queue ≠ [] := by
  intro hempty
  have hcount := hsized.accounted.count
  have hkept := hsized.kept
  rw [hempty, List.length_nil] at hcount
  omega

theorem evictDead_of_alive {dead : ℕ → Bool} {pool : State} (halive : Alive dead pool) :
    evictDead dead pool.queue pool = pool := by
  cases hqueue : pool.queue with
  | nil => rfl
  | cons front rest =>
    have hfront := halive front (hqueue ▸ List.mem_cons_self)
    rw [evictDead, hfront]
    rfl

/-- The scanner never reclaims more than the pool has beyond its initial connections. -/
theorem reclaim_kept (clock : ℕ → ℤ) (queue : List Connection) :
    ∀ (check : ℕ) (pool next : State), config.initCount ≤ pool.currentCount →
      reclaim config clock check queue pool = .ok next →
        config.initCount ≤ next.currentCount := by
  induction queue with
  | nil =>
    intro check pool next hkept hreclaim
    rw [reclaim] at hreclaim
    split_ifs at hreclaim
    cases hreclaim
    exact hkept
  | cons front rest ih =>
    intro check pool next hkept hreclaim
    rw [reclaim] at hreclaim
    split_ifs at hreclaim with hmore
    · refine ih _ (pool.close front rest) next ?_ hreclaim
      show config.initCount ≤ pool.currentCount - 1
      omega
    · cases hreclaim
      exact hkept
    · cases hreclaim
      exact hkept

theorem produceConnectionTask_sizes (config : Config) (now : ℤ) (pool : State) :
    pool.currentCount ≤ (produceConnectionTask config now pool).currentCount ∧
      (produceConnectionTask config now pool).borrowed = pool.borrowed := by
  unfold produceConnectionTask
  split_ifs
  · refine ⟨?_, rfl⟩
    show pool.currentCount ≤ pool.currentCount + 1
    omega
  · exact ⟨le_rfl, rfl⟩
  · exact ⟨le_rfl, rfl⟩

theorem getOneConnect_sizes {dead : ℕ → Bool} {pool next : State} (halive : Alive dead pool)
    (hborrow : getOneConnect dead pool = .ok next) :
    next.currentCount = pool.currentCount ∧
      next.borrowed.length ≤ pool.borrowed.length + 1 := by
  unfold getOneConnect at hborrow
  rw [evictDead_of_alive halive] at hborrow
  split_ifs at hborrow
  · cases hborrow
    exact ⟨rfl, Nat.le_succ _⟩
  · dsimp only at hborrow
    split at hborrow
    · cases hborrow
    · cases hborrow
      exact ⟨rfl, by simp⟩

theorem giveBack_sizes (index : ℕ) (now : ℤ) (pool : State) :
    (Pool.giveBack index now pool).currentCount = pool.currentCount ∧
      (Pool.giveBack index now pool).borrowed.length ≤ pool.borrowed.length := by
  unfold Pool.giveBack
  split
  · exact ⟨rfl, le_rfl⟩
  · exact ⟨rfl, List.length_eraseIdx_le _ _⟩

theorem scan_sizes {dead : ℕ → Bool} {clock : ℕ → ℤ} {pool next : State}
    (hkept : config.initCount ≤ pool.currentCount) (halive : Alive dead pool)
    (hscan : scannerConnectionTask config dead clock pool = .ok next) :
    config.initCount ≤ next.currentCount ∧ next.borrowed = pool.borrowed := by
  unfold scannerConnectionTask at hscan
  rw [evictDead_of_alive halive] at hscan
  exact ⟨reclaim_kept clock _ 0 pool next hkept hscan,
    Wakeups.reclaim_borrowed config clock _ 0 pool next hscan⟩

/-- Every step of such a pool succeeds and keeps its size. -/
theorem step_sized {pool : State} {action : Action} (hworkers : (workers : ℤ) ≤ config.initCount)
    (hsized : Sized config workers pool) (hserved : Served workers pool action) :
    ∃ next, step config pool action = .ok next ∧ Sized config workers next := by
  obtain ⟨haccounted, hkept, hborrowers⟩ := id hsized
  have hsucceeds : FrontExists config pool action := by
    cases action with
    | produce now => trivial
    | borrow dead =>
      obtain ⟨hfree, halive⟩ := hserved
      obtain ⟨front, hfront⟩ := List.exists_mem_of_ne_nil _ (hsized.queue_ne_nil hworkers hfree)
      exact .inr ⟨front, hfront, halive front hfront⟩
    | giveBack index now => trivial
    | scan dead clock => exact .inl (by omega)
  obtain ⟨next, hstep⟩ := (step_isOk_iff config action haccounted).mpr hsucceeds
  have hsizes : config.initCount ≤ next.currentCount ∧ next.borrowed.length ≤ workers := by
    cases action with
    | produce now =>
      cases hstep
      obtain ⟨hcount, hborrowed⟩ := produceConnectionTask_sizes config now pool
      exact ⟨hkept.trans hcount, hborrowed ▸ hborrowers⟩
    | borrow dead =>
      obtain ⟨hcount, hborrowed⟩ := getOneConnect_sizes hserved.2 hstep
      exact ⟨hcount ▸ hkept, hborrowed.trans hserved.1⟩
    | giveBack index now =>
      cases hstep
      obtain ⟨hcount, hborrowed⟩ := giveBack_sizes index now pool
      exact ⟨hcount ▸ hkept, hborrowed.trans hborrowers⟩
    | scan dead clock =>
      obtain ⟨hcount, hborrowed⟩ := scan_sizes hkept hserved hstep
      exact ⟨hcount, hborrowed ▸ hborrowers⟩
  exact ⟨next, hstep, (step_accounted config haccounted hstep).1, hsizes.1, hsizes.2⟩

theorem initial_of_connected (now : ℕ → ℤ) (count : ℕ) :
    (initial (fun _ ↦ true) now count).currentCount = count ∧
      (initial (fun _ ↦ true) now count).borrowed = [] := by
  induction count with
  | zero => exact ⟨rfl, rfl⟩
  | succ count ih =>
    obtain ⟨hcount, hborrowed⟩ := ih
    refine ⟨?_, hborrowed⟩
    show (initial (fun _ ↦ true) now count).currentCount + 1 = _
    rw [hcount]
    push_cast
    rfl

/-- With as many initial connections as workers, and as long as all connections live, no step of the
pool goes wrong, and whenever a worker has no connection there is one in the queue for it. -/
theorem capacity {now : ℕ → ℤ} {pool : State} {actions : List Action}
    (hworkers : (workers : ℤ) ≤ config.initCount)
    (hconstruct : construct config (fun _ ↦ true) now = some pool)
    (hserved : Guarded (step config) (Served workers) pool actions) :
    ∃ final, run (step config) pool actions = .ok final ∧
      config.initCount ≤ final.currentCount ∧ final.borrowed.length ≤ workers ∧
      (final.borrowed.length < workers → final.queue ≠ []) := by
  have hstart : Sized config workers pool := by
    have haccounted := (construct_sound hconstruct).toAccounted
    obtain ⟨hcount, hborrowed⟩ := initial_of_connected now config.initCount.toNat
    unfold construct at hconstruct
    dsimp only at hconstruct
    split_ifs at hconstruct
    cases hconstruct
    refine ⟨haccounted, ?_, ?_⟩
    · rw [hcount]
      omega
    · rw [hborrowed]
      exact Nat.zero_le _
  obtain ⟨final, hrun, hsized⟩ :=
    hserved.run_isOk (fun _ _ ↦ step_sized hworkers) hstart
  exact ⟨final, hrun, hsized.kept, hsized.borrowers, hsized.queue_ne_nil hworkers⟩

/-- One worker and one initial connection. -/
theorem capacity_one : ∃ final,
    run (step smallConfig) smallPool [.borrow fun _ ↦ false, .produce 3, .giveBack 0 5] =
      .ok final ∧ smallConfig.initCount ≤ final.currentCount ∧ final.borrowed.length ≤ 1 ∧
      (final.borrowed.length < 1 → final.queue ≠ []) := by
  have hserved : Guarded (step smallConfig) (Served 1) smallPool
      [.borrow fun _ ↦ false, .produce 3, .giveBack 0 5] :=
    ⟨⟨by decide, fun _ _ ↦ rfl⟩, fun _ _ ↦ ⟨trivial, fun _ _ ↦ ⟨trivial, fun _ _ ↦ trivial⟩⟩⟩
  exact capacity (by decide) construct_smallPool hserved

end TradeServers.LogTimeServer.Sizing
