import TradeServers.Library.Execution
import TradeServers.Library.LockLog
import Mathlib.Data.Int.Notation
import Mathlib.Data.List.Range
import Mathlib.Logic.Function.Basic

/-!
# The lock of the connection pool

`MysqlPool` of the time server guards `_connQueue` with `_queueLock`. A producer thread, a scanner
thread and the threads of the server, which borrow connections and give them back, each hold it
through a `unique_lock`. The scanner also unlocks it by hand, inside the loop that takes dead
connections off the queue, and goes on with the loop. `lock_discipline` says what that does to the
lock.

A step of this model is what a thread does up to its next action on the lock or its next access to
the queue, so a run is an interleaving of the threads. A thread that finds the lock taken waits: its
step leaves the state as it is. Waiting threads may wake up at any time.
-/

set_option autoImplicit false
set_option relaxedAutoImplicit false

namespace TradeServers.DeliTimeServer

open Execution LockLog

/-! ### The threads -/

/-- The threads of the pool, and those of the server. -/
inductive Thread
  | producer
  | scanner
  | server (id : ℕ)
deriving DecidableEq

/-- Where a thread is: outside of the functions of the pool, in `produceConnectionTask`, in
`scannerConnectionTask`, in `getOneConnect`, or in the deleter of a connection. -/
inductive Phase
  | outside
  | produceCheck
  | produceSleep
  | produceWait
  | produce
  | produceLeave
  | scanCheck
  | scanPing
  | scanClose
  | scanUnlock
  | scanCount
  | scanTrim
  | scanLeave
  | borrowCheck
  | borrowSleep
  | borrowWait
  | borrowTimeout
  | borrowTake
  | borrowLeave (sp : Option ℕ)
  | returnPush (pcon : ℕ)
  | returnLeave
deriving DecidableEq

/-- The thread is where its `unique_lock` is locked, as the code has it. -/
def Phase.inside : Phase → Bool
  | .outside => false
  | .produceWait => false
  | .borrowWait => false
  | .scanCount => false
  | _ => true

/-- `_initCount` and `_maxCount`. -/
structure PoolConfig where
  initCount : ℕ
  maxCount : ℤ

/-- The pool: the lock, the queue, the counter and the threads, with the number of connections that
were created, those that are in use, and the log of the lock. -/
structure PoolState where
  queueLock : Option Thread
  connQueue : List ℕ
  currentCount : ℤ
  phase : Thread → Phase
  created : ℕ
  borrowed : List ℕ
  log : List (Action Thread)

/-- `front()` of an empty queue. -/
inductive PoolFault
  | emptyFront
deriving DecidableEq

namespace PoolState

/-- The pool when its constructor has started the threads. -/
def start (config : PoolConfig) : PoolState where
  queueLock := none
  connQueue := List.range config.initCount
  currentCount := config.initCount
  phase := fun _ ↦ .outside
  created := config.initCount
  borrowed := []
  log := []

/-- The thread goes on. -/
def goto (state : PoolState) (thread : Thread) (phase : Phase) : PoolState :=
  { state with phase := Function.update state.phase thread phase }

/-- The thread locks `_queueLock` when it is free. -/
def lock (state : PoolState) (thread : Thread) (phase : Phase) : PoolState :=
  if state.queueLock = none then
    { state.goto thread phase with
      queueLock := some thread
      log := state.log ++ [.lock thread] }
  else state

/-- The thread unlocks `_queueLock`. -/
def unlock (state : PoolState) (thread : Thread) (phase : Phase) : PoolState :=
  { state.goto thread phase with
    queueLock := none
    log := state.log ++ [.unlock thread] }

/-- The thread reads or changes `_connQueue`. -/
def touch (state : PoolState) (thread : Thread) (phase : Phase) (connQueue : List ℕ) : PoolState :=
  { state.goto thread phase with
    connQueue := connQueue
    log := state.log ++ [.touch thread] }

/-- A step of `MysqlPool::produceConnectionTask`. -/
def produceConnectionTask (config : PoolConfig) (state : PoolState) : PoolState :=
  match state.phase .producer with
  | .outside => state.lock .producer .produceCheck
  | .produceCheck =>
    state.touch .producer (if state.connQueue = [] then .produce else .produceSleep) state.connQueue
  | .produceSleep => state.unlock .producer .produceWait
  | .produceWait => state.lock .producer .produceCheck
  | .produce =>
    if state.currentCount < config.maxCount then
      { state.touch .producer .produceLeave (state.connQueue ++ [state.created]) with
        currentCount := state.currentCount + 1
        created := state.created + 1 }
    else state.goto .producer .produceLeave
  | .produceLeave => state.unlock .producer .outside
  | _ => state

/-- A step of `MysqlPool::scannerConnectionTask`; `dead` is the result of `mysqlPing`, and `aged`
says that the connection was idle for too long. -/
def scannerConnectionTask (config : PoolConfig) (dead aged : Bool) (state : PoolState) :
    Except PoolFault PoolState :=
  match state.phase .scanner with
  | .outside => .ok (state.lock .scanner .scanCheck)
  | .scanCheck =>
    .ok (state.touch .scanner (if state.connQueue = [] then .scanTrim else .scanPing)
      state.connQueue)
  | .scanPing =>
    if state.connQueue = [] then .error .emptyFront
    else .ok (state.touch .scanner (if dead then .scanClose else .scanTrim) state.connQueue)
  | .scanClose =>
    if state.connQueue = [] then .error .emptyFront
    else .ok (state.touch .scanner .scanUnlock state.connQueue.tail)
  | .scanUnlock => .ok (state.unlock .scanner .scanCount)
  | .scanCount =>
    .ok { state.goto .scanner .scanCheck with currentCount := state.currentCount - 1 }
  | .scanTrim =>
    if config.initCount < state.currentCount then
      if state.connQueue = [] then .error .emptyFront
      else if aged then
        .ok { state.touch .scanner .scanTrim state.connQueue.tail with
          currentCount := state.currentCount - 1 }
      else .ok (state.touch .scanner .scanLeave state.connQueue)
    else .ok (state.goto .scanner .scanLeave)
  | .scanLeave => .ok (state.unlock .scanner .outside)
  | _ => .ok state

/-- A step of a thread of the server. Outside, it calls `getOneConnect`, or drops the last reference
to a connection, whose deleter then runs. `timeout` says how `wait_for` ended. -/
def serverTask (thread : Thread) (dropped : Option ℕ) (timeout : Bool) (state : PoolState) :
    Except PoolFault PoolState :=
  match state.phase thread with
  | .outside =>
    match dropped with
    | none => .ok (state.lock thread .borrowCheck)
    | some pcon =>
      if pcon ∈ state.borrowed ∧ state.queueLock = none then
        .ok { state.lock thread (.returnPush pcon) with borrowed := state.borrowed.erase pcon }
      else .ok state
  | .borrowCheck =>
    .ok (state.touch thread (if state.connQueue = [] then .borrowSleep else .borrowTake)
      state.connQueue)
  | .borrowSleep => .ok (state.unlock thread .borrowWait)
  | .borrowWait => .ok (state.lock thread (if timeout then .borrowTimeout else .borrowCheck))
  | .borrowTimeout =>
    .ok (state.touch thread (if state.connQueue = [] then .borrowLeave none else .borrowCheck)
      state.connQueue)
  | .borrowTake =>
    match state.connQueue with
    | [] => .error .emptyFront
    | front :: rest => .ok (state.touch thread (.borrowLeave (some front)) rest)
  | .borrowLeave sp =>
    .ok { state.unlock thread .outside with borrowed := sp.toList ++ state.borrowed }
  | .returnPush pcon => .ok (state.touch thread .returnLeave (state.connQueue ++ [pcon]))
  | .returnLeave => .ok (state.unlock thread .outside)
  | _ => .ok state

end PoolState

/-- A step of a thread. -/
inductive PoolEvent
  | producer
  | scanner (dead aged : Bool)
  | server (id : ℕ) (dropped : Option ℕ) (timeout : Bool)

/-- The thread of a step. -/
def PoolEvent.thread : PoolEvent → Thread
  | .producer => .producer
  | .scanner _ _ => .scanner
  | .server id _ _ => .server id

/-- The effect of a step. -/
def poolStep (config : PoolConfig) (state : PoolState) : PoolEvent → Except PoolFault PoolState
  | .producer => .ok (state.produceConnectionTask config)
  | .scanner dead aged => state.scannerConnectionTask config dead aged
  | .server id dropped timeout => state.serverTask (.server id) dropped timeout

/-- The connection at the head of the queue is alive when the scanner pings it. -/
def HeadAlive (state : PoolState) : PoolEvent → Prop
  | .scanner dead _ => state.phase .scanner = .scanPing → dead = false
  | _ => True

/-! ### What a step does to the lock -/

/-- A thread does nothing, goes on by itself, locks the free lock, or unlocks it or touches the
queue where its `unique_lock` is locked. -/
inductive Effect (state : PoolState) (thread : Thread) : PoolState → Prop
  | stay : Effect state thread state
  | goto {next : PoolState} (phase : Phase)
      (hphase : next.phase = Function.update state.phase thread phase)
      (hlock : next.queueLock = state.queueLock) (hlog : next.log = state.log)
      (hinside : (state.phase thread).inside = true) : Effect state thread next
  | lock {next : PoolState} (phase : Phase)
      (hphase : next.phase = Function.update state.phase thread phase)
      (hfree : state.queueLock = none) (hlock : next.queueLock = some thread)
      (hlog : next.log = state.log ++ [.lock thread]) : Effect state thread next
  | touch {next : PoolState} (phase : Phase)
      (hphase : next.phase = Function.update state.phase thread phase)
      (hlock : next.queueLock = state.queueLock) (hlog : next.log = state.log ++ [.touch thread])
      (hinside : (state.phase thread).inside = true) : Effect state thread next
  | unlock {next : PoolState} (phase : Phase)
      (hphase : next.phase = Function.update state.phase thread phase)
      (hlock : next.queueLock = none) (hlog : next.log = state.log ++ [.unlock thread])
      (hinside : (state.phase thread).inside = true) (houtside : phase.inside = false) :
      Effect state thread next

section Effects

variable {config : PoolConfig} {state next : PoolState} {event : PoolEvent} {thread : Thread}

@[simp] theorem phase_goto (state : PoolState) (thread : Thread) (phase : Phase) :
    (state.goto thread phase).phase thread = phase := Function.update_self ..

theorem effect_lock (state : PoolState) (thread : Thread) (phase : Phase) :
    Effect state thread (state.lock thread phase) := by
  unfold PoolState.lock
  split_ifs with hfree
  · exact .lock phase rfl hfree rfl rfl
  · exact .stay

theorem effect_touch (hinside : (state.phase thread).inside = true) (phase : Phase)
    (connQueue : List ℕ) : Effect state thread (state.touch thread phase connQueue) :=
  .touch phase rfl rfl rfl hinside

theorem effect_unlock (hinside : (state.phase thread).inside = true) {phase : Phase}
    (houtside : phase.inside = false) : Effect state thread (state.unlock thread phase) :=
  .unlock phase rfl rfl rfl hinside houtside

theorem effect_producer (config : PoolConfig) (state : PoolState) :
    Effect state .producer (state.produceConnectionTask config) := by
  unfold PoolState.produceConnectionTask
  cases hphase : state.phase .producer with
  | outside => exact effect_lock _ _ _
  | produceCheck => exact effect_touch (by rw [hphase]; rfl) _ _
  | produceSleep => exact effect_unlock (by rw [hphase]; rfl) rfl
  | produceWait => exact effect_lock _ _ _
  | produce =>
    dsimp only
    split_ifs
    · exact .touch .produceLeave rfl rfl rfl (by rw [hphase]; rfl)
    · exact .goto .produceLeave rfl rfl rfl (by rw [hphase]; rfl)
  | produceLeave => exact effect_unlock (by rw [hphase]; rfl) rfl
  | _ => exact .stay

theorem effect_server {dropped : Option ℕ} {timeout : Bool}
    (hstep : state.serverTask thread dropped timeout = .ok next) : Effect state thread next := by
  unfold PoolState.serverTask at hstep
  cases hphase : state.phase thread with
  | outside =>
    rw [hphase] at hstep
    cases dropped with
    | none => exact Except.ok.inj hstep ▸ effect_lock _ _ _
    | some pcon =>
      dsimp only at hstep
      split_ifs at hstep with hfree
      · obtain rfl := Except.ok.inj hstep
        unfold PoolState.lock
        rw [if_pos hfree.2]
        exact .lock (.returnPush pcon) rfl hfree.2 rfl rfl
      · exact Except.ok.inj hstep ▸ .stay
  | borrowCheck =>
    rw [hphase] at hstep
    exact Except.ok.inj hstep ▸ effect_touch (by rw [hphase]; rfl) _ _
  | borrowSleep =>
    rw [hphase] at hstep
    exact Except.ok.inj hstep ▸ effect_unlock (by rw [hphase]; rfl) rfl
  | borrowWait =>
    rw [hphase] at hstep
    exact Except.ok.inj hstep ▸ effect_lock _ _ _
  | borrowTimeout =>
    rw [hphase] at hstep
    exact Except.ok.inj hstep ▸ effect_touch (by rw [hphase]; rfl) _ _
  | borrowTake =>
    rw [hphase] at hstep
    cases hqueue : state.connQueue with
    | nil =>
      rw [hqueue] at hstep
      cases hstep
    | cons front rest =>
      rw [hqueue] at hstep
      exact Except.ok.inj hstep ▸ effect_touch (by rw [hphase]; rfl) _ _
  | borrowLeave sp =>
    rw [hphase] at hstep
    obtain rfl := Except.ok.inj hstep
    exact .unlock .outside rfl rfl rfl (by rw [hphase]; rfl) rfl
  | returnPush pcon =>
    rw [hphase] at hstep
    exact Except.ok.inj hstep ▸ effect_touch (by rw [hphase]; rfl) _ _
  | returnLeave =>
    rw [hphase] at hstep
    exact Except.ok.inj hstep ▸ effect_unlock (by rw [hphase]; rfl) rfl
  | _ =>
    rw [hphase] at hstep
    exact Except.ok.inj hstep ▸ .stay

/-- A step of the scanner, where it is not behind the unlock by hand. -/
theorem effect_scanner {dead aged : Bool} (hcount : state.phase .scanner ≠ .scanCount)
    (hstep : state.scannerConnectionTask config dead aged = .ok next) :
    Effect state .scanner next := by
  unfold PoolState.scannerConnectionTask at hstep
  cases hphase : state.phase .scanner with
  | outside =>
    rw [hphase] at hstep
    exact Except.ok.inj hstep ▸ effect_lock _ _ _
  | scanCheck =>
    rw [hphase] at hstep
    exact Except.ok.inj hstep ▸ effect_touch (by rw [hphase]; rfl) _ _
  | scanPing =>
    rw [hphase] at hstep
    dsimp only at hstep
    split_ifs at hstep
    all_goals exact Except.ok.inj hstep ▸ effect_touch (by rw [hphase]; rfl) _ _
  | scanClose =>
    rw [hphase] at hstep
    dsimp only at hstep
    split_ifs at hstep
    exact Except.ok.inj hstep ▸ effect_touch (by rw [hphase]; rfl) _ _
  | scanUnlock =>
    rw [hphase] at hstep
    exact Except.ok.inj hstep ▸ effect_unlock (by rw [hphase]; rfl) rfl
  | scanCount => exact absurd hphase hcount
  | scanTrim =>
    rw [hphase] at hstep
    dsimp only at hstep
    split_ifs at hstep
    · obtain rfl := Except.ok.inj hstep
      exact .touch .scanTrim rfl rfl rfl (by rw [hphase]; rfl)
    · exact Except.ok.inj hstep ▸ effect_touch (by rw [hphase]; rfl) _ _
    · obtain rfl := Except.ok.inj hstep
      exact .goto .scanLeave rfl rfl rfl (by rw [hphase]; rfl)
  | scanLeave =>
    rw [hphase] at hstep
    exact Except.ok.inj hstep ▸ effect_unlock (by rw [hphase]; rfl) rfl
  | _ =>
    rw [hphase] at hstep
    exact Except.ok.inj hstep ▸ .stay

/-- Every step has such an effect, but for a step of the scanner behind the unlock by hand. -/
theorem effect_of_step (hcount : event.thread = .scanner → state.phase .scanner ≠ .scanCount)
    (hstep : poolStep config state event = .ok next) : Effect state event.thread next := by
  cases event with
  | producer => exact Except.ok.inj hstep ▸ effect_producer config state
  | scanner dead aged => exact effect_scanner (hcount rfl) hstep
  | server id dropped timeout => exact effect_server hstep

/-- A step leaves the other threads where they are. -/
theorem phase_of_effect (heffect : Effect state thread next) (other : Thread)
    (hother : other ≠ thread) : next.phase other = state.phase other := by
  cases heffect with
  | stay => rfl
  | goto phase hphase => rw [hphase, Function.update_of_ne hother]
  | lock phase hphase => rw [hphase, Function.update_of_ne hother]
  | touch phase hphase => rw [hphase, Function.update_of_ne hother]
  | unlock phase hphase => rw [hphase, Function.update_of_ne hother]

/-! ### Runs without dead connections -/

/-- The log is disciplined, its holder holds the lock, and a thread whose `unique_lock` is locked
is the holder. -/
structure Orderly (state : PoolState) : Prop where
  disciplined : Disciplined none state.log
  holder : holderAfter none state.log = state.queueLock
  inside : ∀ thread, (state.phase thread).inside = true → state.queueLock = some thread

theorem orderly_start (config : PoolConfig) : Orderly (.start config) :=
  ⟨trivial, rfl, nofun⟩

/-- Every effect keeps the order. -/
theorem Orderly.effect (horderly : Orderly state) (heffect : Effect state thread next) :
    Orderly next := by
  -- a thread that is inside has not been moved by another one
  have hothers (holder : Option Thread) (hlock : state.queueLock = holder) (other : Thread)
      (hother : other ≠ thread) (hinside : (next.phase other).inside = true) :
      holder = some other := by
    rw [phase_of_effect heffect other hother] at hinside
    exact hlock ▸ horderly.inside other hinside
  obtain ⟨hdisciplined, hholder, hinside⟩ := horderly
  cases heffect with
  | stay => exact ⟨hdisciplined, hholder, hinside⟩
  | goto phase hphase hlock hlog hthread =>
    refine ⟨hlog ▸ hdisciplined, by rw [hlog, hlock, hholder], fun other hother ↦ ?_⟩
    by_cases hsame : other = thread
    · rw [hlock, hsame]
      exact hinside thread hthread
    · rw [hlock]
      exact hothers _ rfl other hsame hother
  | lock phase hphase hfree hlock hlog =>
    refine ⟨?_, by rw [hlog, holderAfter_concat, hlock]; rfl, fun other hother ↦ ?_⟩
    · rw [hlog, disciplined_concat_iff]
      exact ⟨hdisciplined, hholder.trans hfree⟩
    · by_cases hsame : other = thread
      · rw [hlock, hsame]
      · exact absurd (hothers _ hfree other hsame hother) nofun
  | touch phase hphase hlock hlog hthread =>
    refine ⟨?_, by rw [hlog, holderAfter_concat, hlock, hholder]; rfl, fun other hother ↦ ?_⟩
    · rw [hlog, disciplined_concat_iff]
      exact ⟨hdisciplined, hholder.trans (hinside thread hthread)⟩
    · by_cases hsame : other = thread
      · rw [hlock, hsame]
        exact hinside thread hthread
      · rw [hlock]
        exact hothers _ rfl other hsame hother
  | unlock phase hphase hlock hlog hthread houtside =>
    have hmine := hinside thread hthread
    refine ⟨?_, by rw [hlog, holderAfter_concat, hlock]; rfl, fun other hother ↦ ?_⟩
    · rw [hlog, disciplined_concat_iff]
      exact ⟨hdisciplined, hholder.trans hmine⟩
    · by_cases hsame : other = thread
      · rw [hphase, hsame, Function.update_self, houtside] at hother
        cases hother
      · exact absurd (Option.some.inj (hothers _ hmine other hsame hother)).symm hsame

/-- The scanner is not taking a dead connection off the queue. -/
def Scanning : Phase → Prop
  | .scanClose => False
  | .scanUnlock => False
  | .scanCount => False
  | _ => True

theorem Scanning.ne {phase : Phase} (hscanning : Scanning phase) : phase ≠ .scanCount := by
  rintro rfl
  exact hscanning

/-- A step of the scanner that does not find a dead connection. -/
theorem scanning_scanner {dead aged : Bool} (hscanning : Scanning (state.phase .scanner))
    (halive : state.phase .scanner = .scanPing → dead = false)
    (hstep : state.scannerConnectionTask config dead aged = .ok next) :
    Scanning (next.phase .scanner) := by
  have hgoto (phase : Phase) (hphase : Scanning phase) :
      Scanning ((state.goto .scanner phase).phase .scanner) := by
    rw [phase_goto]
    exact hphase
  unfold PoolState.scannerConnectionTask at hstep
  cases hphase : state.phase .scanner with
  | outside =>
    rw [hphase] at hstep
    obtain rfl := Except.ok.inj hstep
    unfold PoolState.lock
    split_ifs
    · exact hgoto .scanCheck trivial
    · exact hscanning
  | scanCheck =>
    rw [hphase] at hstep
    obtain rfl := Except.ok.inj hstep
    exact hgoto _ (by split_ifs <;> trivial)
  | scanPing =>
    rw [hphase, halive hphase] at hstep
    dsimp only at hstep
    split_ifs at hstep
    · contradiction
    · exact Except.ok.inj hstep ▸ hgoto .scanTrim trivial
  | scanTrim =>
    rw [hphase] at hstep
    dsimp only at hstep
    split_ifs at hstep
    · exact Except.ok.inj hstep ▸ hgoto .scanTrim trivial
    · exact Except.ok.inj hstep ▸ hgoto .scanLeave trivial
    · exact Except.ok.inj hstep ▸ hgoto .scanLeave trivial
  | scanLeave =>
    rw [hphase] at hstep
    exact Except.ok.inj hstep ▸ hgoto .outside trivial
  | scanClose =>
    rw [hphase] at hscanning
    exact hscanning.elim
  | scanUnlock =>
    rw [hphase] at hscanning
    exact hscanning.elim
  | scanCount =>
    rw [hphase] at hscanning
    exact hscanning.elim
  | _ =>
    rw [hphase] at hstep
    exact Except.ok.inj hstep ▸ hscanning

/-- The scanner takes a connection off the queue only when it finds it dead. -/
theorem scanning_of_step (hscanning : Scanning (state.phase .scanner))
    (halive : HeadAlive state event) (hstep : poolStep config state event = .ok next) :
    Scanning (next.phase .scanner) := by
  have heffect := effect_of_step (fun _ ↦ hscanning.ne) hstep
  cases event with
  | producer => exact (phase_of_effect heffect .scanner nofun).symm ▸ hscanning
  | server id dropped timeout =>
    exact (phase_of_effect heffect .scanner nofun).symm ▸ hscanning
  | scanner dead aged => exact scanning_scanner hscanning halive hstep

/-! ### Behind a dead connection -/

/-- The scanner has found a dead connection and is as many steps away from touching the queue
without the lock, or it has done so. -/
def Doomed : ℕ → PoolState → Prop
  | 0, state => ¬ Disciplined none state.log
  | 1, state => holderAfter none state.log ≠ some .scanner ∧ state.phase .scanner = .scanCheck
  | 2, state => holderAfter none state.log ≠ some .scanner ∧ state.phase .scanner = .scanCount
  | 3, state => state.phase .scanner = .scanUnlock
  | 4, state => state.phase .scanner = .scanClose
  | _, _ => False

/-- The log only grows. -/
theorem log_of_effect (heffect : Effect state thread next) :
    ∃ more, next.log = state.log ++ more := by
  cases heffect with
  | stay => exact ⟨[], (List.append_nil _).symm⟩
  | goto phase hphase hlock hlog => exact ⟨[], hlog.trans (List.append_nil _).symm⟩
  | lock phase hphase hfree hlock hlog => exact ⟨_, hlog⟩
  | touch phase hphase hlock hlog => exact ⟨_, hlog⟩
  | unlock phase hphase hlock hlog => exact ⟨_, hlog⟩

/-- Another thread does not make the scanner the holder of the lock. -/
theorem holder_of_effect (heffect : Effect state thread next) (hother : thread ≠ .scanner)
    (hholder : holderAfter none state.log ≠ some .scanner) :
    holderAfter none next.log ≠ some .scanner := by
  cases heffect with
  | stay => exact hholder
  | goto phase hphase hlock hlog => exact hlog ▸ hholder
  | lock phase hphase hfree hlock hlog =>
    rw [hlog, holderAfter_concat]
    exact fun hsame ↦ hother (Option.some.inj hsame)
  | touch phase hphase hlock hlog =>
    rw [hlog, holderAfter_concat]
    exact hholder
  | unlock phase hphase hlock hlog =>
    rw [hlog, holderAfter_concat]
    exact nofun

/-- The step of the scanner behind the unlock by hand leaves the log as it is. -/
theorem scanner_of_scanCount {dead aged : Bool} (hphase : state.phase .scanner = .scanCount)
    (hstep : state.scannerConnectionTask config dead aged = .ok next) :
    next.log = state.log ∧ next.phase .scanner = .scanCheck := by
  unfold PoolState.scannerConnectionTask at hstep
  rw [hphase] at hstep
  obtain rfl := Except.ok.inj hstep
  exact ⟨rfl, phase_goto state .scanner .scanCheck⟩

/-- A log that is not disciplined stays so. -/
theorem undisciplined_step (hbroken : ¬ Disciplined none state.log)
    (hstep : poolStep config state event = .ok next) : ¬ Disciplined none next.log := by
  have hlog : ∃ more, next.log = state.log ++ more := by
    by_cases hcount : event.thread = .scanner ∧ state.phase .scanner = .scanCount
    · cases event with
      | scanner dead aged =>
        exact ⟨[], (scanner_of_scanCount hcount.2 hstep).1.trans (List.append_nil _).symm⟩
      | producer => exact absurd hcount.1 nofun
      | server id dropped timeout => exact absurd hcount.1 nofun
    · exact log_of_effect (effect_of_step (fun hthread hphase ↦ hcount ⟨hthread, hphase⟩) hstep)
  obtain ⟨more, hmore⟩ := hlog
  rw [hmore, disciplined_append_iff]
  exact fun hboth ↦ hbroken hboth.1

/-- A step of the scanner behind a dead connection. -/
theorem doomed_scanner {steps : ℕ} {dead aged : Bool} (hdoomed : Doomed (steps + 1) state)
    (hstep : state.scannerConnectionTask config dead aged = .ok next) : Doomed steps next := by
  match steps, hdoomed with
  | 0, ⟨hholder, hphase⟩ =>
    unfold PoolState.scannerConnectionTask at hstep
    rw [hphase] at hstep
    obtain rfl := Except.ok.inj hstep
    change ¬ Disciplined none (state.log ++ [.touch .scanner])
    rw [disciplined_concat_iff]
    exact fun hboth ↦ hholder hboth.2
  | 1, ⟨hholder, hphase⟩ =>
    obtain ⟨hlog, hnext⟩ := scanner_of_scanCount hphase hstep
    exact ⟨hlog ▸ hholder, hnext⟩
  | 2, hphase =>
    unfold PoolState.scannerConnectionTask at hstep
    rw [show state.phase .scanner = .scanUnlock from hphase] at hstep
    obtain rfl := Except.ok.inj hstep
    refine ⟨?_, phase_goto state .scanner .scanCount⟩
    change holderAfter none (state.log ++ [.unlock .scanner]) ≠ _
    rw [holderAfter_concat]
    exact nofun
  | 3, hphase =>
    unfold PoolState.scannerConnectionTask at hstep
    rw [show state.phase .scanner = .scanClose from hphase] at hstep
    dsimp only at hstep
    split_ifs at hstep
    exact Except.ok.inj hstep ▸ phase_goto state .scanner .scanUnlock

/-- A step of another thread changes nothing about it. -/
theorem doomed_other {steps : ℕ} (hdoomed : Doomed steps state) (hother : event.thread ≠ .scanner)
    (hstep : poolStep config state event = .ok next) : Doomed steps next := by
  have heffect := effect_of_step (fun hthread ↦ absurd hthread hother) hstep
  have hphase := phase_of_effect heffect .scanner hother.symm
  match steps, hdoomed with
  | 0, hbroken => exact undisciplined_step hbroken hstep
  | 1, ⟨hholder, hcheck⟩ => exact ⟨holder_of_effect heffect hother hholder, hphase.trans hcheck⟩
  | 2, ⟨hholder, hcount⟩ => exact ⟨holder_of_effect heffect hother hholder, hphase.trans hcount⟩
  | 3, hunlock => exact hphase.trans hunlock
  | 4, hclose => exact hphase.trans hclose

/-- The steps of the scanner in a run. -/
def scannerSteps (events : List PoolEvent) : ℕ :=
  events.countP fun event ↦ event.thread = .scanner

theorem scannerSteps_cons (event : PoolEvent) (events : List PoolEvent) :
    scannerSteps (event :: events) =
      scannerSteps events + if event.thread = .scanner then 1 else 0 := by
  simp [scannerSteps, List.countP_cons]

/-- When the scanner takes enough steps behind a dead connection, the log is not disciplined. -/
theorem doomed_run {events : List PoolEvent} :
    ∀ {state final : PoolState} {steps : ℕ}, Doomed steps state → steps ≤ scannerSteps events →
      run (poolStep config) state events = .ok final → ¬ Disciplined none final.log := by
  induction events with
  | nil =>
    intro state final steps hdoomed hsteps hrun
    obtain rfl := Except.ok.inj hrun
    obtain rfl := Nat.le_zero.mp hsteps
    exact hdoomed
  | cons event events ih =>
    intro state final steps hdoomed hsteps hrun
    obtain ⟨next, hstep, hrest⟩ := run_cons_eq_ok_iff.mp hrun
    by_cases hscanner : event.thread = .scanner
    · cases steps with
      | zero =>
        have hnext : Doomed 0 next := undisciplined_step hdoomed hstep
        exact ih hnext (Nat.zero_le _) hrest
      | succ steps =>
        have hnext : Doomed steps next := by
          cases event with
          | scanner dead aged => exact doomed_scanner hdoomed hstep
          | producer => exact absurd hscanner nofun
          | server id dropped timeout => exact absurd hscanner nofun
        refine ih hnext ?_ hrest
        rw [scannerSteps_cons, if_pos hscanner] at hsteps
        exact Nat.le_of_succ_le_succ hsteps
    · refine ih (doomed_other hdoomed hscanner hstep) ?_ hrest
      rwa [scannerSteps_cons, if_neg hscanner] at hsteps

/-! ### The discipline of the lock -/

/-- In every run in which no connection is dead when the scanner pings it at the head of the queue,
`_queueLock` is unlocked only by its holder, once per acquisition, and `_connQueue` is touched only
by the holder. When the scanner finds a dead connection, it breaks this within its next four steps,
whatever the other threads do. -/
theorem lock_discipline (config : PoolConfig) (events : List PoolEvent) :
    (Guarded (poolStep config) HeadAlive (.start config) events → ∀ final,
      run (poolStep config) (.start config) events = .ok final → Disciplined none final.log ∧
        ∀ thread, final.log.count (.unlock thread) +
          (if holderAfter none final.log = some thread then 1 else 0) =
            final.log.count (.lock thread)) ∧
    ∀ earlier aged later middle final, events = earlier ++ .scanner true aged :: later →
      run (poolStep config) (.start config) earlier = .ok middle →
      middle.phase .scanner = .scanPing → 4 ≤ scannerSteps later →
      run (poolStep config) (.start config) events = .ok final → ¬ Disciplined none final.log := by
  constructor
  · intro hguarded final hrun
    have hstep : ∀ state event next, Orderly state ∧ Scanning (state.phase .scanner) →
        HeadAlive state event → poolStep config state event = .ok next →
        Orderly next ∧ Scanning (next.phase .scanner) := fun state event next hgood halive hnext ↦
      ⟨hgood.1.effect (effect_of_step (fun _ ↦ hgood.2.ne) hnext),
        scanning_of_step hgood.2 halive hnext⟩
    have hfinal := (Guarded.run_invariant hstep ⟨orderly_start config, trivial⟩ hguarded
      hrun).1.disciplined
    exact ⟨hfinal, hfinal.count_unlock⟩
  · rintro earlier aged later middle final rfl hrun hping hsteps hfinal
    obtain ⟨reached, hreached, hrest⟩ := run_append_eq_ok_iff.mp hfinal
    obtain rfl := Except.ok.inj (hrun.symm.trans hreached)
    obtain ⟨next, hstep, hlater⟩ := run_cons_eq_ok_iff.mp hrest
    have hdoomed : Doomed 4 next := by
      change middle.scannerConnectionTask config true aged = .ok next at hstep
      unfold PoolState.scannerConnectionTask at hstep
      rw [hping] at hstep
      dsimp only at hstep
      split_ifs at hstep
      · exact Except.ok.inj hstep ▸ phase_goto middle .scanner .scanClose
      · contradiction
    exact doomed_run hdoomed hsteps hlater

end Effects

/-! ### A pool of one connection -/

/-- A round of the scanner's loop on a pool whose only connection is alive. A thread of the server
that wants the connection comes to the lock in between, and again when it is free. -/
def aliveHead : List PoolEvent :=
  [.scanner false false, .server 0 none false, .scanner false false, .scanner false false,
    .scanner false false, .scanner false false, .server 0 none false, .server 0 none false,
    .server 0 none false, .server 0 none false]

/-- The scanner and the thread each lock and unlock once. -/
theorem lock_discipline_aliveHead :
    Guarded (poolStep ⟨1, 1⟩) HeadAlive (.start ⟨1, 1⟩) aliveHead ∧
      ∃ final, run (poolStep ⟨1, 1⟩) (.start ⟨1, 1⟩) aliveHead = .ok final ∧
        Disciplined none final.log ∧ final.log.count (.unlock .scanner) = 1 ∧
        final.log.count (.unlock (.server 0)) = 1 := by
  have halive : ∀ event ∈ aliveHead, ∀ state, HeadAlive state event := by
    simp [aliveHead, HeadAlive]
  have hguarded : Guarded (poolStep ⟨1, 1⟩) HeadAlive (.start ⟨1, 1⟩) aliveHead :=
    guarded_of_forall halive _
  have hlog : (run (poolStep ⟨1, 1⟩) (.start ⟨1, 1⟩) aliveHead).toOption.map PoolState.log =
      some [.lock .scanner, .touch .scanner, .touch .scanner, .unlock .scanner,
        .lock (.server 0), .touch (.server 0), .touch (.server 0), .unlock (.server 0)] := by
    decide +kernel
  obtain ⟨final, hrun, hfinal⟩ := exists_ok_of_toOption hlog
  obtain ⟨hdisciplined, hcount⟩ := (lock_discipline ⟨1, 1⟩ aliveHead).1 hguarded final hrun
  rw [hfinal] at hcount
  refine ⟨hguarded, final, hrun, hdisciplined, ?_⟩
  rw [hfinal]
  exact ⟨hcount .scanner, hcount (.server 0)⟩

/-- Two rounds of the scanner's loop on a pool whose only connection is dead. -/
def deadHead : List PoolEvent := List.replicate 9 (.scanner true false)

/-- The scanner unlocks by hand what its `unique_lock` unlocks again, and looks at the queue in
between. -/
theorem scanner_releases_twice :
    ∃ final, run (poolStep ⟨1, 1⟩) (.start ⟨1, 1⟩) deadHead = .ok final ∧
      ¬ Disciplined none final.log ∧ final.log.count (.lock .scanner) = 1 ∧
      final.log.count (.unlock .scanner) = 2 := by
  have hlog : (run (poolStep ⟨1, 1⟩) (.start ⟨1, 1⟩) deadHead).toOption.map PoolState.log =
      some [.lock .scanner, .touch .scanner, .touch .scanner, .touch .scanner, .unlock .scanner,
        .touch .scanner, .unlock .scanner] := by
    decide +kernel
  obtain ⟨final, hrun, hfinal⟩ := exists_ok_of_toOption hlog
  refine ⟨final, hrun, ?_⟩
  rw [hfinal]
  decide

end TradeServers.DeliTimeServer
