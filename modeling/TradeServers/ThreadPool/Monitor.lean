import Mathlib.Algebra.BigOperators.Fin
import Mathlib.Algebra.Order.BigOperators.Group.Finset
import Mathlib.Data.Fintype.Basic
import TradeServers.Library.Simulation

/-!
# The thread pool

`ThreadPool` is a queue behind a mutex and a condition variable: `run` pushes a task and notifies
one waiting thread, `take` waits while the queue is empty, `stop` makes all threads leave their
loop. Every server of the repository has a copy of it. The steps of the model are the critical
sections: what a thread does between taking the mutex and giving it back or waiting, and what it
does outside of it; a condition variable may wake a thread that nobody notified.

- `waiting_le_woken`: while a thread waits, every queued task has a thread that was woken for it.
- `quiescent_executed`: when no thread of a running pool can go on, all tasks were executed.
- `accounted_for`: tasks start in the order in which they were accepted, and every task that was
  started was executed once or is being executed.
- `work_bounded`: the threads never spin; a run has at most a fixed number of their steps for each
  thread, each task and each wake-up.
- `stopped_ends`: after `stop` all threads finish in a bounded number of steps, each starts at most
  one more task, and the rest of the queue is never executed.
-/

set_option autoImplicit false
set_option relaxedAutoImplicit false

namespace TradeServers.ThreadPool

open Execution

variable {τ : Type} {n : ℕ}

/-- Where a thread of the pool is: at the head of the loop of `runInThread`, in `take` before it has
the mutex, in `notEmpty_.wait()`, woken but without the mutex, in a task, or out of the loop. -/
inductive Phase (τ : Type)
  | looping
  | entering
  | waiting
  | woken
  | performing (task : τ)
  | finished

def Phase.isWaiting : Phase τ → Bool
  | .waiting => true
  | _ => false

@[simp] theorem isWaiting_iff (phase : Phase τ) : phase.isWaiting = true ↔ phase = .waiting := by
  cases phase <;> simp [Phase.isWaiting]

/-- A pool of `n` threads. The tasks that were accepted, started and executed so far are kept with
it, each list in its own order. -/
structure State (n : ℕ) (τ : Type) where
  running : Bool
  queue : List τ
  phases : Fin n → Phase τ
  accepted : List τ
  started : List τ
  executed : List τ

/-- The pool behind `ThreadPool::start`. -/
def start (n : ℕ) (τ : Type) : State n τ := ⟨true, [], fun _ ↦ .looping, [], [], []⟩

def State.setPhase (state : State n τ) (thread : Fin n) (phase : Phase τ) : State n τ :=
  { state with phases := Function.update state.phases thread phase }

/-- The thread that `notify` wakes: the given one when it waits, else the first that does. -/
def State.notified (state : State n τ) (chosen : ℕ) : Option (Fin n) :=
  ((List.finRange n).find? fun thread ↦ thread.val = chosen && (state.phases thread).isWaiting).or
    ((List.finRange n).find? fun thread ↦ (state.phases thread).isWaiting)

/-- `notEmpty_.notify()`; without a waiting thread it does nothing. -/
def State.notify (state : State n τ) (chosen : ℕ) : State n τ :=
  match state.notified chosen with
  | some thread => state.setPhase thread .woken
  | none => state

/-- The task goes to the back of `queue_`. -/
def State.push (state : State n τ) (task : τ) : State n τ :=
  { state with queue := state.queue ++ [task], accepted := state.accepted ++ [task] }

/-- `ThreadPool::run`. Without threads the caller executes the task. -/
def State.run (state : State n τ) (task : τ) (chosen : ℕ) : State n τ :=
  if n = 0 then
    { state with
      accepted := state.accepted ++ [task]
      started := state.started ++ [task]
      executed := state.executed ++ [task] }
  else if state.running then (state.push task).notify chosen
  else state

/-- The critical section of `take`: wait while the queue is empty and the pool runs, else pop the
front. Popping nothing returns the empty task, and the loop of `runInThread` goes on. -/
def State.take (state : State n τ) (thread : Fin n) : State n τ :=
  match state.queue with
  | [] => state.setPhase thread (if state.running then .waiting else .looping)
  | front :: rest =>
    { state.setPhase thread (.performing front) with
      queue := rest, started := state.started ++ [front] }

/-- The next step of a thread in `runInThread`, if it does not wait. -/
def State.advance (state : State n τ) (thread : Fin n) : State n τ :=
  match state.phases thread with
  | .looping => state.setPhase thread (if state.running then .entering else .finished)
  | .entering | .woken => state.take thread
  | .performing task =>
    { state.setPhase thread .looping with executed := state.executed ++ [task] }
  | .waiting | .finished => state

/-- A wake-up of a waiting thread that nobody notified. -/
def State.wake (state : State n τ) (thread : Fin n) : State n τ :=
  if (state.phases thread).isWaiting then state.setPhase thread .woken else state

/-- The critical section of `ThreadPool::stop`: clear `running_` and notify all. -/
def State.stop (state : State n τ) : State n τ :=
  { state with
    running := false
    phases := fun thread ↦
      if (state.phases thread).isWaiting then .woken else state.phases thread }

/-- What can happen: a task is handed in, a thread goes on or is woken for no reason, the task of a
thread throws an exception, or the pool is stopped. -/
inductive Action (n : ℕ) (τ : Type)
  | run (task : τ) (chosen : ℕ)
  | advance (thread : Fin n)
  | wake (thread : Fin n)
  | throw (thread : Fin n)
  | stop

/-- `runInThread` ends the process when a task throws. -/
inductive Aborted
  | uncaught

def step (state : State n τ) : Action n τ → Except Aborted (State n τ)
  | .run task chosen => .ok (state.run task chosen)
  | .advance thread => .ok (state.advance thread)
  | .wake thread => .ok (state.wake thread)
  | .throw thread =>
    match state.phases thread with
    | .performing _ => .error .uncaught
    | _ => .ok state
  | .stop => .ok state.stop

/-- A thread that neither waits nor has left its loop can go on. -/
def State.CanStep (state : State n τ) (thread : Fin n) : Prop :=
  match state.phases thread with
  | .waiting | .finished => False
  | _ => True

instance (state : State n τ) (thread : Fin n) : Decidable (state.CanStep thread) := by
  unfold State.CanStep
  split <;> infer_instance

/-- The steps of the threads are the events of a run. -/
def worked (state : State n τ) : Action n τ → Option (Fin n)
  | .advance thread => if state.CanStep thread then some thread else none
  | _ => none

/-! ### What the steps do -/

section Steps

variable (state : State n τ) (thread : Fin n) (phase : Phase τ)

@[simp] theorem setPhase_running : (state.setPhase thread phase).running = state.running := rfl

@[simp] theorem setPhase_queue : (state.setPhase thread phase).queue = state.queue := rfl

@[simp] theorem setPhase_accepted : (state.setPhase thread phase).accepted = state.accepted := rfl

@[simp] theorem setPhase_started : (state.setPhase thread phase).started = state.started := rfl

@[simp] theorem setPhase_executed : (state.setPhase thread phase).executed = state.executed := rfl

theorem setPhase_phases (other : Fin n) : (state.setPhase thread phase).phases other =
    if other = thread then phase else state.phases other :=
  Function.update_apply _ _ _ _

end Steps

/-- What a thread that can go on does. -/
inductive Advanced (state : State n τ) (thread : Fin n) : State n τ → Prop
  | enter : state.phases thread = .looping → state.running = true →
      Advanced state thread (state.setPhase thread .entering)
  | leave : state.phases thread = .looping → state.running = false →
      Advanced state thread (state.setPhase thread .finished)
  | wait : state.phases thread = .entering ∨ state.phases thread = .woken → state.queue = [] →
      state.running = true → Advanced state thread (state.setPhase thread .waiting)
  | nothing : state.phases thread = .entering ∨ state.phases thread = .woken → state.queue = [] →
      state.running = false → Advanced state thread (state.setPhase thread .looping)
  | begin (front : τ) (rest : List τ) :
      state.phases thread = .entering ∨ state.phases thread = .woken →
      state.queue = front :: rest →
      Advanced state thread { state.setPhase thread (.performing front) with
        queue := rest, started := state.started ++ [front] }
  | complete (task : τ) : state.phases thread = .performing task →
      Advanced state thread { state.setPhase thread .looping with
        executed := state.executed ++ [task] }

theorem take_advanced {state : State n τ} {thread : Fin n}
    (hphase : state.phases thread = .entering ∨ state.phases thread = .woken) :
    Advanced state thread (state.take thread) := by
  unfold State.take
  split
  · rename_i hqueue
    cases hrunning : state.running with
    | true => exact .wait hphase hqueue hrunning
    | false => exact .nothing hphase hqueue hrunning
  · rename_i front rest hqueue
    exact .begin front rest hphase hqueue

theorem advance_of_canStep {state : State n τ} {thread : Fin n} (hcan : state.CanStep thread) :
    Advanced state thread (state.advance thread) := by
  unfold State.CanStep at hcan
  unfold State.advance
  cases hphase : state.phases thread with
  | looping =>
    cases hrunning : state.running with
    | true => exact .enter hphase hrunning
    | false => exact .leave hphase hrunning
  | entering => exact take_advanced (.inl hphase)
  | woken => exact take_advanced (.inr hphase)
  | performing task => exact .complete task hphase
  | waiting => rw [hphase] at hcan; exact hcan.elim
  | finished => rw [hphase] at hcan; exact hcan.elim

theorem advance_of_not_canStep {state : State n τ} {thread : Fin n}
    (hcan : ¬ state.CanStep thread) : state.advance thread = state := by
  unfold State.CanStep at hcan
  unfold State.advance
  cases hphase : state.phases thread <;> simp_all

theorem notify_cases (state : State n τ) (chosen : ℕ) :
    (∀ thread, state.phases thread ≠ .waiting) ∧ state.notify chosen = state ∨
      ∃ thread, state.phases thread = .waiting ∧
        state.notify chosen = state.setPhase thread .woken := by
  unfold State.notify
  cases hnotified : state.notified chosen with
  | none =>
    have hnone := (Option.or_eq_none_iff.mp hnotified).2
    rw [List.find?_eq_none] at hnone
    refine .inl ⟨fun thread hwaiting ↦ ?_, rfl⟩
    exact hnone thread (List.mem_finRange thread) ((isWaiting_iff _).mpr hwaiting)
  | some thread =>
    refine .inr ⟨thread, ?_, rfl⟩
    rcases Option.or_eq_some_iff.mp hnotified with hfirst | ⟨-, hfirst⟩
    · have hboth : thread.val = chosen ∧ state.phases thread = .waiting := by
        simpa using List.find?_some hfirst
      exact hboth.2
    · simpa using List.find?_some hfirst

/-- A task that is handed in is executed at once, pushed, or dropped. -/
theorem run_cases (state : State n τ) (task : τ) (chosen : ℕ) :
    n = 0 ∧ state.run task chosen = { state with
        accepted := state.accepted ++ [task]
        started := state.started ++ [task]
        executed := state.executed ++ [task] } ∨
      0 < n ∧ state.running = true ∧ state.run task chosen = (state.push task).notify chosen ∨
      0 < n ∧ state.running = false ∧ state.run task chosen = state := by
  unfold State.run
  by_cases hthreads : n = 0
  · exact .inl ⟨hthreads, if_pos hthreads⟩
  · rw [if_neg hthreads]
    cases hrunning : state.running with
    | true => exact .inr (.inl ⟨Nat.pos_of_ne_zero hthreads, rfl, rfl⟩)
    | false => exact .inr (.inr ⟨Nat.pos_of_ne_zero hthreads, rfl, rfl⟩)

/-! ### Sums over the threads -/

section Totals

variable {M : Type*} [AddCommMonoid M]

/-- The sum of a weight of the phases over all threads. -/
def State.total (weight : Phase τ → M) (state : State n τ) : M :=
  ∑ thread, weight (state.phases thread)

/-- Moving one thread exchanges its weight. -/
theorem total_setPhase (weight : Phase τ → M) (state : State n τ) (thread : Fin n)
    (phase : Phase τ) : (state.setPhase thread phase).total weight + weight (state.phases thread) =
      state.total weight + weight phase :=
  sum_update_add weight state.phases thread phase

end Totals

/-- One for a thread that was woken and has not got the mutex yet. -/
def Phase.wakeups : Phase τ → ℕ
  | .woken => 1
  | _ => 0

/-- The task that a thread is executing. -/
def Phase.held : Phase τ → Multiset τ
  | .performing task => {task}
  | _ => 0

def State.woken (state : State n τ) : ℕ := state.total Phase.wakeups

def State.held (state : State n τ) : Multiset τ := state.total Phase.held

theorem held_card_le (phase : Phase τ) : phase.held.card ≤ 1 := by
  cases phase <;> simp [Phase.held]

/-- Each thread holds one task at most. -/
theorem card_held_le (state : State n τ) : state.held.card ≤ n := by
  have hsum : state.held.card ≤ ∑ _thread : Fin n, 1 := by
    unfold State.held State.total
    rw [Multiset.card_sum]
    exact Finset.sum_le_sum fun thread _ ↦ held_card_le (state.phases thread)
  simpa using hsum

theorem held_setPhase {state : State n τ} {thread : Fin n} {phase : Phase τ}
    (hbefore : (state.phases thread).held = 0) (hafter : phase.held = 0) :
    (state.setPhase thread phase).held = state.held := by
  have htotal := total_setPhase Phase.held state thread phase
  rw [hbefore, hafter, add_zero, add_zero] at htotal
  exact htotal

/-! ### The invariant -/

/-- Tasks start in the order in which they were accepted, and each is executed once or held by one
thread; a thread waits in a running pool only, and while it does every queued task has a thread that
was woken; a thread has left its loop only when the pool was stopped; a pool without threads queues
nothing. -/
structure Sound (state : State n τ) : Prop where
  order : state.accepted = state.started ++ state.queue
  once : (state.started : Multiset τ) = state.executed + state.held
  awake : ∀ thread, state.phases thread = .waiting →
    state.running = true ∧ state.queue.length ≤ state.woken
  leaving : ∀ thread, state.phases thread = .finished → state.running = false
  direct : n = 0 → state.queue = []

theorem start_sound (n : ℕ) (τ : Type) : Sound (start n τ) := by
  refine ⟨rfl, ?_, fun thread hwaiting ↦ ?_, fun thread hfinished ↦ ?_, fun _ ↦ rfl⟩
  · simp [start, State.held, State.total, Phase.held]
  · cases hwaiting
  · cases hfinished

theorem waiting_setPhase {state : State n τ} {thread other : Fin n} {phase : Phase τ}
    (hmoved : phase ≠ .waiting) (hwaiting : (state.setPhase thread phase).phases other = .waiting) :
    other ≠ thread ∧ state.phases other = .waiting := by
  rw [setPhase_phases] at hwaiting
  by_cases hsame : other = thread
  · rw [if_pos hsame] at hwaiting
    exact (hmoved hwaiting).elim
  · rw [if_neg hsame] at hwaiting
    exact ⟨hsame, hwaiting⟩

theorem finished_setPhase {state : State n τ} {thread other : Fin n} {phase : Phase τ}
    (hmoved : phase ≠ .finished)
    (hfinished : (state.setPhase thread phase).phases other = .finished) :
    state.phases other = .finished := by
  rw [setPhase_phases] at hfinished
  by_cases hsame : other = thread
  · rw [if_pos hsame] at hfinished
    exact (hmoved hfinished).elim
  · rwa [if_neg hsame] at hfinished

theorem woken_setPhase_of_waiting {state : State n τ} {thread : Fin n}
    (hwaiting : state.phases thread = .waiting) :
    (state.setPhase thread .woken).woken = state.woken + 1 := by
  have htotal := total_setPhase Phase.wakeups state thread .woken
  rw [hwaiting] at htotal
  exact htotal

/-- A state in which a thread was just woken is sound if it was before up to one queued task. -/
theorem setPhase_woken_sound {state : State n τ} {thread : Fin n}
    (horder : state.accepted = state.started ++ state.queue)
    (honce : (state.started : Multiset τ) = state.executed + state.held)
    (hwaiting : state.phases thread = .waiting) (hrunning : state.running = true)
    (hawake : state.queue.length ≤ state.woken + 1)
    (hleaving : ∀ thread, state.phases thread = .finished → state.running = false) :
    Sound (state.setPhase thread .woken) := by
  have hheld : (state.setPhase thread .woken).held = state.held :=
    held_setPhase (by rw [hwaiting]; rfl) rfl
  refine ⟨horder, ?_, fun other _ ↦ ⟨hrunning, ?_⟩, fun other hfinished ↦ ?_, fun hnone ↦ ?_⟩
  · rw [hheld]
    exact honce
  · rw [woken_setPhase_of_waiting hwaiting]
    exact hawake
  · exact hleaving other (finished_setPhase (by simp) hfinished)
  · subst hnone
    exact thread.elim0

theorem handed_in_sound {state : State n τ} (hsound : Sound state) (task : τ) (chosen : ℕ) :
    Sound (state.run task chosen) := by
  obtain ⟨horder, honce, hawake, hleaving, hdirect⟩ := hsound
  rcases run_cases state task chosen with ⟨hnone, hrun⟩ | ⟨hsome, hrunning, hrun⟩ | ⟨-, -, hrun⟩
  · rw [hrun]
    have hqueue := hdirect hnone
    refine ⟨?_, ?_, hawake, hleaving, hdirect⟩
    · simp [horder, hqueue]
    · show ((state.started ++ [task] : List τ) : Multiset τ) =
        ((state.executed ++ [task] : List τ) : Multiset τ) + state.held
      rw [← Multiset.coe_add, ← Multiset.coe_add, honce]
      abel
  · rw [hrun]
    rcases notify_cases (state.push task) chosen with
      ⟨hnobody, hnotify⟩ | ⟨thread, hwaiting, hnotify⟩
    · rw [hnotify]
      refine ⟨?_, honce, fun thread hwaiting ↦ (hnobody thread hwaiting).elim, hleaving,
        fun hnone ↦ (hsome.ne' hnone).elim⟩
      simp [State.push, horder]
    · rw [hnotify]
      refine setPhase_woken_sound ?_ honce hwaiting hrunning ?_ hleaving
      · simp [State.push, horder]
      · have hbefore := (hawake thread hwaiting).2
        show (state.queue ++ [task]).length ≤ state.woken + 1
        simpa using hbefore
  · rw [hrun]
    exact ⟨horder, honce, hawake, hleaving, hdirect⟩

theorem wake_sound {state : State n τ} (hsound : Sound state) (thread : Fin n) :
    Sound (state.wake thread) := by
  unfold State.wake
  split_ifs with hwaiting
  · rw [isWaiting_iff] at hwaiting
    obtain ⟨hrunning, hawake⟩ := hsound.awake thread hwaiting
    exact setPhase_woken_sound hsound.order hsound.once hwaiting hrunning
      (Nat.le_succ_of_le hawake) hsound.leaving
  · exact hsound

theorem stop_phases_ne_waiting (state : State n τ) (thread : Fin n) :
    state.stop.phases thread ≠ .waiting := by
  show (if (state.phases thread).isWaiting then Phase.woken else state.phases thread) ≠ .waiting
  split_ifs with hwaiting
  · simp
  · rwa [isWaiting_iff] at hwaiting

theorem stop_sound {state : State n τ} (hsound : Sound state) : Sound state.stop := by
  refine ⟨hsound.order, ?_, fun thread hwaiting ↦ ?_, fun _ _ ↦ rfl, hsound.direct⟩
  · have hheld : state.stop.held = state.held := by
      unfold State.held State.total
      refine Finset.sum_congr rfl fun thread _ ↦ ?_
      show Phase.held (if (state.phases thread).isWaiting then .woken else state.phases thread) = _
      split_ifs with hwaiting
      · rw [(isWaiting_iff _).mp hwaiting]
        rfl
      · rfl
    rw [hheld]
    exact hsound.once
  · exact (stop_phases_ne_waiting state thread hwaiting).elim

/-- A thread moves without a task, and no wake-up is lost. -/
theorem setPhase_sound {state : State n τ} {thread : Fin n} {phase : Phase τ}
    (hsound : Sound state) (hbefore : (state.phases thread).held = 0) (hafter : phase.held = 0)
    (hwakeup : (state.phases thread).wakeups = 0 ∨ state.queue = [])
    (hwait : phase = .waiting → state.running = true ∧ state.queue = [])
    (hfinish : phase = .finished → state.running = false) :
    Sound (state.setPhase thread phase) := by
  obtain ⟨horder, honce, hawake, hleaving, hdirect⟩ := hsound
  have hwoken := total_setPhase Phase.wakeups state thread phase
  refine ⟨horder, ?_, fun other hother ↦ ?_, fun other hother ↦ ?_, hdirect⟩
  · rw [held_setPhase hbefore hafter]
    exact honce
  · have hsleeps : state.running = true ∧
        (state.queue = [] ∨ state.queue.length ≤ state.woken) := by
      rw [setPhase_phases] at hother
      split_ifs at hother with hsame
      · exact ⟨(hwait hother).1, .inl (hwait hother).2⟩
      · exact ⟨(hawake other hother).1, .inr (hawake other hother).2⟩
    refine ⟨hsleeps.1, ?_⟩
    rcases hwakeup with hnone | hempty
    · rw [hnone, add_zero] at hwoken
      rcases hsleeps.2 with hempty | hbound
      · simp [hempty]
      · exact hbound.trans ((Nat.le_add_right _ _).trans_eq hwoken.symm)
    · simp [hempty]
  · rw [setPhase_phases] at hother
    split_ifs at hother with hsame
    · exact hfinish hother
    · exact hleaving other hother

/-- What a thread does keeps the pool sound. -/
theorem advanced_sound {state next : State n τ} {thread : Fin n} (hsound : Sound state)
    (hadvanced : Advanced state thread next) : Sound next := by
  cases hadvanced with
  | enter hphase hrunning =>
    exact setPhase_sound hsound (by rw [hphase]; rfl) rfl (.inl (by rw [hphase]; rfl)) (by simp)
      (by simp)
  | leave hphase hrunning =>
    exact setPhase_sound hsound (by rw [hphase]; rfl) rfl (.inl (by rw [hphase]; rfl)) (by simp)
      fun _ ↦ hrunning
  | wait hphase hqueue hrunning =>
    have hbefore : (state.phases thread).held = 0 := by
      rcases hphase with hphase | hphase <;> rw [hphase] <;> rfl
    exact setPhase_sound hsound hbefore rfl (.inr hqueue) (fun _ ↦ ⟨hrunning, hqueue⟩) (by simp)
  | nothing hphase hqueue hrunning =>
    have hbefore : (state.phases thread).held = 0 := by
      rcases hphase with hphase | hphase <;> rw [hphase] <;> rfl
    exact setPhase_sound hsound hbefore rfl (.inr hqueue) (by simp) (by simp)
  | begin front rest hphase hqueue =>
    obtain ⟨horder, honce, hawake, hleaving, hdirect⟩ := hsound
    have hheld := total_setPhase Phase.held state thread (.performing front)
    have hwoken := total_setPhase Phase.wakeups state thread (.performing front)
    have hbefore : (state.phases thread).held = 0 ∧ (state.phases thread).wakeups ≤ 1 := by
      rcases hphase with hphase | hphase <;> rw [hphase]
      · exact ⟨rfl, Nat.zero_le 1⟩
      · exact ⟨rfl, le_rfl⟩
    refine ⟨?_, ?_, fun other hother ↦ ?_, fun other hother ↦ ?_, fun hnone ↦ ?_⟩
    · simp [horder, hqueue]
    · rw [hbefore.1, add_zero] at hheld
      show ((state.started ++ [front] : List τ) : Multiset τ) =
        state.executed + (state.setPhase thread (.performing front)).held
      rw [State.held, hheld, ← Multiset.coe_add, honce, add_assoc]
      rfl
    · obtain ⟨-, hother⟩ := waiting_setPhase (by simp) hother
      obtain ⟨hrunning, hbound⟩ := hawake other hother
      refine ⟨hrunning, ?_⟩
      rw [hqueue, List.length_cons] at hbound
      show rest.length ≤ (state.setPhase thread (.performing front)).total Phase.wakeups
      have hzero : (Phase.performing front).wakeups = 0 := rfl
      unfold State.woken at hbound
      omega
    · exact hleaving other (finished_setPhase (by simp) hother)
    · subst hnone
      exact thread.elim0
  | complete task hphase =>
    obtain ⟨horder, honce, hawake, hleaving, hdirect⟩ := hsound
    have hheld := total_setPhase Phase.held state thread .looping
    have hwoken := total_setPhase Phase.wakeups state thread .looping
    rw [hphase] at hheld hwoken
    refine ⟨horder, ?_, fun other hother ↦ ?_, fun other hother ↦ ?_, hdirect⟩
    · show (state.started : Multiset τ) = ((state.executed ++ [task] : List τ) : Multiset τ) +
        (state.setPhase thread .looping).held
      have hmoved : (state.setPhase thread .looping).held + {task} = state.held :=
        hheld.trans (add_zero _)
      rw [honce, ← hmoved, ← Multiset.coe_add, add_comm _ ({task} : Multiset τ), ← add_assoc]
      rfl
    · obtain ⟨hrunning, hbound⟩ := hawake other (waiting_setPhase (by simp) hother).2
      have hsame : (state.setPhase thread .looping).woken = state.woken := hwoken
      exact ⟨hrunning, hbound.trans_eq hsame.symm⟩
    · exact hleaving other (finished_setPhase (by simp) hother)

theorem throw_eq_ok {state next : State n τ} {thread : Fin n}
    (hstep : step state (.throw thread) = .ok next) : next = state := by
  cases hphase : state.phases thread <;> simp only [step, hphase] at hstep <;> cases hstep <;> rfl

theorem step_sound {state next : State n τ} {action : Action n τ} (hsound : Sound state)
    (hstep : step state action = .ok next) : Sound next := by
  cases action with
  | run task chosen =>
    cases hstep
    exact handed_in_sound hsound task chosen
  | advance thread =>
    cases hstep
    by_cases hcan : state.CanStep thread
    · exact advanced_sound hsound (advance_of_canStep hcan)
    · rw [advance_of_not_canStep hcan]
      exact hsound
  | wake thread =>
    cases hstep
    exact wake_sound hsound thread
  | throw thread =>
    rw [throw_eq_ok hstep]
    exact hsound
  | stop =>
    cases hstep
    exact stop_sound hsound

/-! ### The work of the threads -/

/-- How many steps a thread takes at most before it waits or is out of its loop, apart from those
that a queued task or a wake-up pays for. -/
def Phase.ahead : Bool → Phase τ → ℕ
  | true, .looping => 2
  | true, .entering => 1
  | true, .waiting => 0
  | true, .woken => 1
  | true, .performing _ => 3
  | true, .finished => 0
  | false, .looping => 1
  | false, .entering => 3
  | false, .waiting => 3
  | false, .woken => 3
  | false, .performing _ => 2
  | false, .finished => 0

/-- The steps that are paid for: those of the threads, and three for a queued task. -/
def State.potential (state : State n τ) : ℕ :=
  state.total (Phase.ahead state.running) + if state.running then 3 * state.queue.length else 0

/-- What an action adds to the steps that the threads can take. -/
def Action.allowance : Action n τ → ℕ
  | .run _ _ => 4
  | .advance _ => 0
  | .wake _ => 1
  | .throw _ => 0
  | .stop => 3 * n

theorem ahead_le (running : Bool) (phase : Phase τ) : Phase.ahead running phase ≤ 3 := by
  cases running <;> cases phase <;> simp [Phase.ahead]

theorem total_ahead_le (running : Bool) (state : State n τ) :
    state.total (Phase.ahead running) ≤ 3 * n := by
  have hsum := Finset.sum_le_card_nsmul Finset.univ
    (fun thread ↦ Phase.ahead running (state.phases thread)) 3 fun thread _ ↦ ahead_le running _
  rw [Finset.card_univ, Fintype.card_fin, smul_eq_mul, mul_comm] at hsum
  exact hsum

theorem potential_running {state : State n τ} (hrunning : state.running = true) :
    state.potential = state.total (Phase.ahead true) + 3 * state.queue.length := by
  rw [State.potential, hrunning, if_pos rfl]

theorem potential_stopped {state : State n τ} (hrunning : state.running = false) :
    state.potential = state.total (Phase.ahead false) := by
  rw [State.potential, hrunning, if_neg (by simp), add_zero]

/-- The weights after a thread moved from one phase to another. -/
theorem total_ahead_setPhase {running : Bool} {state : State n τ} {thread : Fin n}
    {before after : ℕ} (phase : Phase τ)
    (hbefore : Phase.ahead running (state.phases thread) = before)
    (hafter : Phase.ahead running phase = after) :
    (state.setPhase thread phase).total (Phase.ahead running) + before =
      state.total (Phase.ahead running) + after := by
  have htotal := total_setPhase (Phase.ahead running) state thread phase
  rwa [hbefore, hafter] at htotal

theorem potential_lt_of_running {state next : State n τ} (hbefore : state.running = true)
    (hafter : next.running = true)
    (hless : next.total (Phase.ahead true) + 3 * next.queue.length + 1 ≤
      state.total (Phase.ahead true) + 3 * state.queue.length) :
    next.potential + 1 ≤ state.potential := by
  rwa [potential_running hbefore, potential_running hafter]

theorem potential_lt_of_stopped {state next : State n τ} (hbefore : state.running = false)
    (hafter : next.running = false)
    (hless : next.total (Phase.ahead false) + 1 ≤ state.total (Phase.ahead false)) :
    next.potential + 1 ≤ state.potential := by
  rwa [potential_stopped hbefore, potential_stopped hafter]

/-- A step of a thread uses up one of the steps that are paid for. -/
theorem potential_advanced {state next : State n τ} {thread : Fin n}
    (hadvanced : Advanced state thread next) : next.potential + 1 ≤ state.potential := by
  cases hadvanced with
  | enter hphase hrunning =>
    have hmoved := total_ahead_setPhase .entering (congrArg (Phase.ahead true) hphase) rfl
    refine potential_lt_of_running hrunning hrunning ?_
    rw [setPhase_queue]
    simp only [Phase.ahead] at hmoved
    omega
  | leave hphase hrunning =>
    have hmoved := total_ahead_setPhase .finished (congrArg (Phase.ahead false) hphase) rfl
    refine potential_lt_of_stopped hrunning hrunning ?_
    simp only [Phase.ahead] at hmoved
    omega
  | wait hphase hqueue hrunning =>
    have hbefore : Phase.ahead true (state.phases thread) = 1 := by
      rcases hphase with hphase | hphase <;> rw [hphase] <;> rfl
    have hmoved := total_ahead_setPhase .waiting hbefore rfl
    refine potential_lt_of_running hrunning hrunning ?_
    rw [setPhase_queue]
    simp only [Phase.ahead] at hmoved
    omega
  | nothing hphase hqueue hrunning =>
    have hbefore : Phase.ahead false (state.phases thread) = 3 := by
      rcases hphase with hphase | hphase <;> rw [hphase] <;> rfl
    have hmoved := total_ahead_setPhase .looping hbefore rfl
    simp only [Phase.ahead] at hmoved
    refine potential_lt_of_stopped hrunning hrunning ?_
    omega
  | begin front rest hphase hqueue =>
    have hlength : state.queue.length = rest.length + 1 := by simp [hqueue]
    cases hrunning : state.running with
    | true =>
      have hbefore : Phase.ahead true (state.phases thread) = 1 := by
        rcases hphase with hphase | hphase <;> rw [hphase] <;> rfl
      have hmoved := total_ahead_setPhase (.performing front) hbefore rfl
      simp only [Phase.ahead] at hmoved
      refine potential_lt_of_running hrunning hrunning ?_
      show (state.setPhase thread (.performing front)).total (Phase.ahead true) +
        3 * rest.length + 1 ≤ _
      omega
    | false =>
      have hbefore : Phase.ahead false (state.phases thread) = 3 := by
        rcases hphase with hphase | hphase <;> rw [hphase] <;> rfl
      have hmoved := total_ahead_setPhase (.performing front) hbefore rfl
      simp only [Phase.ahead] at hmoved
      refine potential_lt_of_stopped hrunning hrunning ?_
      show (state.setPhase thread (.performing front)).total (Phase.ahead false) + 1 ≤ _
      omega
  | complete task hphase =>
    cases hrunning : state.running with
    | true =>
      have hmoved := total_ahead_setPhase .looping (congrArg (Phase.ahead true) hphase) rfl
      refine potential_lt_of_running hrunning hrunning ?_
      show (state.setPhase thread .looping).total (Phase.ahead true) +
        3 * state.queue.length + 1 ≤ _
      simp only [Phase.ahead] at hmoved
      omega
    | false =>
      have hmoved := total_ahead_setPhase .looping (congrArg (Phase.ahead false) hphase) rfl
      refine potential_lt_of_stopped hrunning hrunning ?_
      show (state.setPhase thread .looping).total (Phase.ahead false) + 1 ≤ _
      simp only [Phase.ahead] at hmoved
      omega

theorem potential_setPhase_woken {state : State n τ} {thread : Fin n}
    (hrunning : state.running = true) (hwaiting : state.phases thread = .waiting) :
    (state.setPhase thread .woken).potential = state.potential + 1 := by
  have hmoved := total_ahead_setPhase .woken (congrArg (Phase.ahead true) hwaiting) rfl
  have hsame : (state.setPhase thread .woken).running = true := hrunning
  have hafter := potential_running hsame
  rw [hafter, potential_running hrunning, setPhase_queue]
  simp only [Phase.ahead] at hmoved
  omega

theorem potential_run (state : State n τ) (task : τ) (chosen : ℕ) :
    (state.run task chosen).potential ≤ state.potential + 4 := by
  rcases run_cases state task chosen with ⟨-, hrun⟩ | ⟨-, hrunning, hrun⟩ | ⟨-, -, hrun⟩
  · rw [hrun]
    exact Nat.le_add_right _ 4
  · rw [hrun]
    have hpushed : (state.push task).potential = state.potential + 3 := by
      have hafter := potential_running (show (state.push task).running = true from hrunning)
      have hlength : (state.push task).queue.length = state.queue.length + 1 := by
        simp [State.push]
      rw [hafter, potential_running hrunning, hlength]
      exact (Nat.add_assoc _ _ _).symm
    rcases notify_cases (state.push task) chosen with
      ⟨-, hnotify⟩ | ⟨thread, hwaiting, hnotify⟩
    · rw [hnotify, hpushed]
      exact Nat.le_succ _
    · have hpushing : (state.push task).running = true := hrunning
      rw [hnotify, potential_setPhase_woken hpushing hwaiting, hpushed]
  · rw [hrun]
    exact Nat.le_add_right _ 4

theorem worked_of_canStep {state : State n τ} {thread : Fin n} (hcan : state.CanStep thread) :
    worked state (.advance thread) = some thread :=
  if_pos hcan

theorem worked_of_not_canStep {state : State n τ} {thread : Fin n}
    (hcan : ¬ state.CanStep thread) : worked state (.advance thread) = none :=
  if_neg hcan

/-- Every step pays for the step of a thread that it is. -/
theorem potential_step {state next : State n τ} {action : Action n τ} (hsound : Sound state)
    (hstep : step state action = .ok next) :
    next.potential + (worked state action).toList.length ≤ state.potential + action.allowance := by
  cases action with
  | run task chosen =>
    cases hstep
    exact potential_run state task chosen
  | advance thread =>
    cases hstep
    by_cases hcan : state.CanStep thread
    · rw [worked_of_canStep hcan]
      exact potential_advanced (advance_of_canStep hcan)
    · rw [worked_of_not_canStep hcan, advance_of_not_canStep hcan]
      exact le_rfl
  | wake thread =>
    cases hstep
    show (state.wake thread).potential ≤ _
    unfold State.wake
    split_ifs with hwaiting
    · rw [isWaiting_iff] at hwaiting
      rw [potential_setPhase_woken (hsound.awake thread hwaiting).1 hwaiting]
      exact le_rfl
    · exact Nat.le_add_right _ _
  | throw thread =>
    rw [throw_eq_ok hstep]
    exact le_rfl
  | stop =>
    cases hstep
    show state.stop.potential ≤ _
    rw [potential_stopped rfl]
    exact (total_ahead_le false state.stop).trans (Nat.le_add_left _ _)

theorem potential_start (n : ℕ) (τ : Type) : (start n τ).potential = 2 * n := by
  rw [potential_running rfl]
  show ∑ _thread : Fin n, 2 + 3 * 0 = 2 * n
  rw [Finset.sum_const, Finset.card_univ, Fintype.card_fin, smul_eq_mul]
  omega

/-- The threads do a bounded amount of work for every task, wake-up and stop. -/
theorem work_bounded {actions : List (Action n τ)} {final : State n τ}
    (hrun : Execution.run step (start n τ) actions = .ok final) :
    (trace step worked (start n τ) actions).length ≤
      2 * n + (actions.map Action.allowance).sum := by
  have hbound : (trace step worked (start n τ) actions).length + final.potential ≤ _ :=
    length_trace_le (fun _ _ _ ↦ step_sound) (fun _ _ _ ↦ potential_step) (start_sound n τ) hrun
  rw [potential_start] at hbound
  omega

theorem work_bounded_two : ∃ final,
    Execution.run step (start 2 ℕ) [.run 7 0, .advance 0, .advance 0, .advance 0, .stop] =
      .ok final ∧ (trace step worked (start 2 ℕ) [.run 7 0, .advance 0, .advance 0, .advance 0,
        .stop]).length ≤ 14 :=
  ⟨_, rfl, work_bounded rfl⟩

/-! ### Whole runs -/

theorem reached_sound {actions : List (Action n τ)} {final : State n τ}
    (hrun : Execution.run step (start n τ) actions = .ok final) : Sound final :=
  run_invariant (fun _ _ _ ↦ step_sound) (start_sound n τ) hrun

/-- No wake-up is lost: while a thread waits the pool runs, and every queued task has a thread that
was woken and will look at the queue. -/
theorem waiting_le_woken {actions : List (Action n τ)} {final : State n τ} {thread : Fin n}
    (hrun : Execution.run step (start n τ) actions = .ok final)
    (hwaiting : final.phases thread = .waiting) :
    final.running = true ∧ final.queue.length ≤ final.woken :=
  (reached_sound hrun).awake thread hwaiting

theorem waiting_le_woken_two : ∃ final,
    Execution.run step (start 2 ℕ) [.advance 0, .advance 0, .advance 1, .advance 1, .run 7 0] =
      .ok final ∧ final.queue = [7] ∧ final.running = true ∧
      final.queue.length ≤ final.woken := by
  have hreached : ∃ final, Execution.run step (start 2 ℕ)
      [.advance 0, .advance 0, .advance 1, .advance 1, .run 7 0] = .ok final ∧
      final.queue = [7] ∧ final.phases 1 = .waiting :=
    ⟨_, rfl, rfl, rfl⟩
  obtain ⟨final, hrun, hqueue, hwaiting⟩ := hreached
  exact ⟨final, hrun, hqueue, waiting_le_woken hrun hwaiting⟩

theorem held_eq_zero {state : State n τ} (hquiet : ∀ thread, ¬ state.CanStep thread) :
    state.held = 0 := by
  unfold State.held State.total
  refine Finset.sum_eq_zero fun thread _ ↦ ?_
  have hthread := hquiet thread
  unfold State.CanStep at hthread
  cases hphase : state.phases thread <;> simp_all [Phase.held]

/-- When no thread of a sound pool that runs can go on, all of them wait, and everything is done. -/
theorem Sound.quiescent {state : State n τ} (hsound : Sound state) (hrunning : state.running = true)
    (hquiet : ∀ thread, ¬ state.CanStep thread) :
    (∀ thread, state.phases thread = .waiting) ∧ state.queue = [] ∧
      state.executed.Perm state.accepted := by
  have hwaiting : ∀ thread, state.phases thread = .waiting := by
    intro thread
    have hthread := hquiet thread
    unfold State.CanStep at hthread
    cases hphase : state.phases thread with
    | waiting => rfl
    | finished =>
      have hstopped := hsound.leaving thread hphase
      rw [hrunning] at hstopped
      cases hstopped
    | _ => rw [hphase] at hthread; exact (hthread trivial).elim
  have hqueue : state.queue = [] := by
    rcases Nat.eq_zero_or_pos n with hnone | hsome
    · exact hsound.direct hnone
    · have hbound := (hsound.awake ⟨0, hsome⟩ (hwaiting _)).2
      have hwoken : state.woken = 0 := by
        unfold State.woken State.total
        refine Finset.sum_eq_zero fun thread _ ↦ ?_
        rw [hwaiting thread]
        rfl
      rw [hwoken] at hbound
      exact List.length_eq_zero_iff.mp (Nat.le_zero.mp hbound)
  refine ⟨hwaiting, hqueue, ?_⟩
  have honce := hsound.once
  rw [held_eq_zero hquiet, add_zero] at honce
  rw [hsound.order, hqueue, List.append_nil]
  exact (Multiset.coe_eq_coe.mp honce).symm

/-- When no thread of a running pool can go on, all of them wait, the queue is empty, and every
accepted task was executed once. -/
theorem quiescent_executed {actions : List (Action n τ)} {final : State n τ}
    (hrun : Execution.run step (start n τ) actions = .ok final) (hrunning : final.running = true)
    (hquiet : ∀ thread, ¬ final.CanStep thread) :
    (∀ thread, final.phases thread = .waiting) ∧ final.queue = [] ∧
      final.executed.Perm final.accepted :=
  (reached_sound hrun).quiescent hrunning hquiet

/-- The second of two threads found the queue empty, the first one executed the task. -/
theorem quiescent_executed_two : ∃ final,
    Execution.run step (start 2 ℕ) [.run 7 0, .advance 0, .advance 0, .advance 0, .advance 0,
      .advance 0, .advance 1, .advance 1] = .ok final ∧
      (∀ thread, final.phases thread = .waiting) ∧ final.queue = [] ∧
      final.executed.Perm final.accepted := by
  have hreached : ∃ final, Execution.run step (start 2 ℕ) [.run 7 0, .advance 0, .advance 0,
      .advance 0, .advance 0, .advance 0, .advance 1, .advance 1] = .ok final ∧
      final.running = true ∧ ∀ thread, ¬ final.CanStep thread :=
    ⟨_, rfl, rfl, by decide⟩
  obtain ⟨final, hrun, hrunning, hquiet⟩ := hreached
  exact ⟨final, hrun, quiescent_executed hrun hrunning hquiet⟩

/-! ### Accepted tasks -/

/-- One for a thread that is in `take`. -/
def Phase.inTake : Phase τ → ℕ
  | .entering => 1
  | .waiting => 1
  | .woken => 1
  | _ => 0

def State.inTake (state : State n τ) : ℕ := state.total Phase.inTake

def Action.task? : Action n τ → Option τ
  | .run task _ => some task
  | _ => none

def Action.isStop : Action n τ → Bool
  | .stop => true
  | _ => false

theorem notify_kept (state : State n τ) (chosen : ℕ) :
    (state.notify chosen).accepted = state.accepted ∧
      (state.notify chosen).running = state.running := by
  rcases notify_cases state chosen with ⟨-, hnotify⟩ | ⟨thread, -, hnotify⟩ <;> rw [hnotify] <;>
    exact ⟨rfl, rfl⟩

theorem notify_executed (state : State n τ) (chosen : ℕ) :
    (state.notify chosen).executed = state.executed := by
  rcases notify_cases state chosen with ⟨-, hnotify⟩ | ⟨thread, -, hnotify⟩ <;> rw [hnotify]
  rfl

theorem advanced_executed {state next : State n τ} {thread : Fin n}
    (hadvanced : Advanced state thread next) : state.executed <+: next.executed := by
  cases hadvanced with
  | complete task hphase => exact List.prefix_append _ _
  | _ => exact List.prefix_rfl

/-- What was executed stays so. -/
theorem step_executed {state next : State n τ} {action : Action n τ}
    (hstep : step state action = .ok next) : state.executed <+: next.executed := by
  cases action with
  | run task chosen =>
    cases hstep
    rcases run_cases state task chosen with ⟨-, hrun⟩ | ⟨-, -, hrun⟩ | ⟨-, -, hrun⟩ <;> rw [hrun]
    · exact List.prefix_append _ _
    · rw [notify_executed]
      exact List.prefix_rfl
  | advance thread =>
    cases hstep
    by_cases hcan : state.CanStep thread
    · exact advanced_executed (advance_of_canStep hcan)
    · rw [advance_of_not_canStep hcan]
  | wake thread =>
    cases hstep
    show state.executed <+: (state.wake thread).executed
    unfold State.wake
    split_ifs <;> exact List.prefix_rfl
  | throw thread => rw [throw_eq_ok hstep]
  | stop =>
    cases hstep
    exact List.prefix_rfl

theorem advanced_kept {state next : State n τ} {thread : Fin n}
    (hadvanced : Advanced state thread next) :
    next.accepted = state.accepted ∧ next.running = state.running := by
  cases hadvanced <;> exact ⟨rfl, rfl⟩

theorem advance_kept (state : State n τ) (thread : Fin n) :
    (state.advance thread).accepted = state.accepted ∧
      (state.advance thread).running = state.running := by
  by_cases hcan : state.CanStep thread
  · exact advanced_kept (advance_of_canStep hcan)
  · rw [advance_of_not_canStep hcan]
    exact ⟨rfl, rfl⟩

/-- A running pool accepts what it is handed, and runs until it is stopped. -/
theorem step_of_running {state next : State n τ} {action : Action n τ} (hthreads : 0 < n)
    (hrunning : state.running = true) (hstep : step state action = .ok next) :
    next.accepted = state.accepted ++ action.task?.toList ∧
      next.running = !action.isStop := by
  cases action with
  | run task chosen =>
    cases hstep
    rcases run_cases state task chosen with ⟨hnone, -⟩ | ⟨-, -, hrun⟩ | ⟨-, hstopped, -⟩
    · exact (hthreads.ne' hnone).elim
    · rw [hrun, (notify_kept _ chosen).1, (notify_kept _ chosen).2]
      exact ⟨rfl, hrunning⟩
    · rw [hrunning] at hstopped
      cases hstopped
  | advance thread =>
    cases hstep
    rw [(advance_kept state thread).1, (advance_kept state thread).2]
    exact ⟨(List.append_nil _).symm, hrunning⟩
  | wake thread =>
    cases hstep
    show (state.wake thread).accepted = _ ∧ (state.wake thread).running = _
    unfold State.wake
    split_ifs <;> exact ⟨(List.append_nil _).symm, hrunning⟩
  | throw thread =>
    rw [throw_eq_ok hstep]
    exact ⟨(List.append_nil _).symm, hrunning⟩
  | stop =>
    cases hstep
    exact ⟨(List.append_nil _).symm, rfl⟩

/-- In a stopped pool only the threads do anything. -/
theorem step_of_stopped {state next : State n τ} {action : Action n τ} (hthreads : 0 < n)
    (hsound : Sound state) (hstopped : state.running = false)
    (hstep : step state action = .ok next) :
    next = state ∧ worked state action = none ∨
      ∃ thread, worked state action = some thread ∧ Advanced state thread next := by
  have hnobody : ∀ thread, state.phases thread ≠ .waiting := by
    intro thread hwaiting
    have hrunning := (hsound.awake thread hwaiting).1
    rw [hstopped] at hrunning
    cases hrunning
  cases action with
  | run task chosen =>
    cases hstep
    rcases run_cases state task chosen with ⟨hnone, -⟩ | ⟨-, hrunning, -⟩ | ⟨-, -, hrun⟩
    · exact (hthreads.ne' hnone).elim
    · rw [hstopped] at hrunning
      cases hrunning
    · exact .inl ⟨hrun, rfl⟩
  | advance thread =>
    cases hstep
    by_cases hcan : state.CanStep thread
    · exact .inr ⟨thread, worked_of_canStep hcan, advance_of_canStep hcan⟩
    · exact .inl ⟨advance_of_not_canStep hcan, worked_of_not_canStep hcan⟩
  | wake thread =>
    cases hstep
    refine .inl ⟨?_, rfl⟩
    show state.wake thread = state
    rw [State.wake, if_neg]
    rw [isWaiting_iff]
    exact hnobody thread
  | throw thread => exact .inl ⟨throw_eq_ok hstep, rfl⟩
  | stop =>
    cases hstep
    refine .inl ⟨?_, rfl⟩
    have hphases : state.stop.phases = state.phases := by
      funext thread
      refine if_neg ?_
      rw [isWaiting_iff]
      exact hnobody thread
    show ({ state with running := false, phases := state.stop.phases } : State n τ) = state
    rw [hphases, ← hstopped]

/-- Since the pool was stopped, threads have started the front of its queue, not more tasks than
there were threads in `take`, and nothing was accepted. -/
structure Drained (state next : State n τ) : Prop where
  sound : Sound next
  stopped : next.running = false
  accepted : next.accepted = state.accepted
  drained : ∃ taken, taken.length + next.inTake ≤ state.inTake ∧
    next.started = state.started ++ taken ∧ state.queue = taken ++ next.queue

theorem drained_step {state middle next : State n τ} {action : Action n τ} (hthreads : 0 < n)
    (hdrained : Drained state middle) (hstep : step middle action = .ok next) :
    Drained state next := by
  obtain ⟨hsound, hstopped, haccepted, taken, hlength, hstarted, hqueue⟩ := hdrained
  have hkept := step_sound hsound hstep
  rcases step_of_stopped hthreads hsound hstopped hstep with ⟨rfl, -⟩ | ⟨thread, -, hadvanced⟩
  · exact ⟨hsound, hstopped, haccepted, taken, hlength, hstarted, hqueue⟩
  · refine ⟨hkept, (advanced_kept hadvanced).2.trans hstopped,
      (advanced_kept hadvanced).1.trans haccepted, ?_⟩
    have hmoved := total_setPhase Phase.inTake middle thread
    unfold State.inTake at hlength ⊢
    cases hadvanced with
    | enter hphase hrunning =>
      rw [hstopped] at hrunning
      cases hrunning
    | leave hphase _ =>
      have hless := hmoved .finished
      simp only [Phase.inTake] at hless
      exact ⟨taken, by omega, hstarted, hqueue⟩
    | wait hphase hempty hrunning =>
      rw [hstopped] at hrunning
      cases hrunning
    | nothing hphase hempty _ =>
      have hless := hmoved .looping
      simp only [Phase.inTake] at hless
      exact ⟨taken, by omega, hstarted, hqueue⟩
    | begin front rest hphase hfront =>
      have hless := hmoved (.performing front)
      have hbefore : (middle.phases thread).inTake = 1 := by
        rcases hphase with hphase | hphase <;> rw [hphase] <;> rfl
      rw [hbefore] at hless
      simp only [Phase.inTake] at hless
      refine ⟨taken ++ [front], ?_, ?_, ?_⟩
      · show (taken ++ [front]).length +
          (middle.setPhase thread (.performing front)).total Phase.inTake ≤ _
        rw [List.length_append, List.length_singleton]
        omega
      · show middle.started ++ [front] = _
        rw [hstarted, List.append_assoc]
      · show state.queue = _ ++ rest
        rw [hqueue, hfront, List.append_assoc]
        rfl
    | complete task hphase =>
      have hless := hmoved .looping
      simp only [Phase.inTake] at hless
      refine ⟨taken, ?_, hstarted, hqueue⟩
      show taken.length + (middle.setPhase thread .looping).total Phase.inTake ≤ _
      omega

theorem drained_run {state final : State n τ} {actions : List (Action n τ)} (hthreads : 0 < n)
    (hsound : Sound state) (hstopped : state.running = false)
    (hrun : Execution.run step state actions = .ok final) : Drained state final :=
  run_invariant (fun _ _ _ ↦ drained_step hthreads)
    ⟨hsound, hstopped, rfl, [], by simp, (List.append_nil _).symm, rfl⟩ hrun

/-- A pool accepts what it is handed before the first stop. -/
theorem accepted_of_running {actions : List (Action n τ)} (hthreads : 0 < n) :
    ∀ {state final : State n τ}, Sound state → state.running = true →
      Execution.run step state actions = .ok final →
      final.accepted = state.accepted ++
        (actions.takeWhile fun action ↦ !action.isStop).filterMap Action.task? := by
  induction actions with
  | nil =>
    intro state final _ _ hrun
    cases hrun
    simp
  | cons action actions ih =>
    intro state final hsound hrunning hrun
    obtain ⟨next, hstep, hrest⟩ := run_cons_eq_ok_iff.mp hrun
    obtain ⟨haccepted, hnext⟩ := step_of_running hthreads hrunning hstep
    have hkept := step_sound hsound hstep
    cases hstop : action.isStop with
    | true =>
      rw [hstop] at hnext
      have hnone : action.task? = none := by
        cases action <;> first | rfl | cases hstop
      rw [(drained_run hthreads hkept hnext hrest).accepted, haccepted, hnone,
        List.takeWhile_cons_of_neg (by simp [hstop])]
      rfl
    | false =>
      rw [hstop] at hnext
      rw [ih hkept hnext hrest, haccepted, List.takeWhile_cons_of_pos (by simp [hstop]),
        List.filterMap_cons, List.append_assoc]
      cases action.task? <;> rfl

/-- The tasks that were handed in before the first stop were accepted; they were started in this
order, as far as they do not wait in the queue; and those that were started were executed once each,
or are being executed by a thread. -/
theorem accounted_for {actions : List (Action n τ)} {final : State n τ} (hthreads : 0 < n)
    (hrun : Execution.run step (start n τ) actions = .ok final) :
    (actions.takeWhile fun action ↦ !action.isStop).filterMap Action.task? =
        final.started ++ final.queue ∧
      (final.started : Multiset τ) = final.executed + final.held ∧
      final.held.card ≤ n := by
  have hsound := reached_sound hrun
  have haccepted := accepted_of_running hthreads (start_sound n τ) rfl hrun
  exact ⟨haccepted.symm.trans hsound.order, hsound.once, card_held_le final⟩

theorem accounted_for_two : ∃ final,
    Execution.run step (start 2 ℕ) [.run 7 0, .advance 0, .advance 0, .run 8 1] = .ok final ∧
      [7, 8] = final.started ++ final.queue ∧
      (final.started : Multiset ℕ) = final.executed + final.held ∧ final.held.card ≤ 2 :=
  ⟨_, rfl, accounted_for (by decide)
    (show Execution.run step (start 2 ℕ) [.run 7 0, .advance 0, .advance 0, .run 8 1] = _ from rfl)⟩

/-- Once the pool is stopped, its threads take at most three more steps each and end up out of their
loops; the threads that were in `take` start at most one more task each, from the front of the
queue, and what is left of the queue is not executed. -/
theorem stopped_ends {earlier later : List (Action n τ)} {state final : State n τ}
    (hthreads : 0 < n) (hearlier : Execution.run step (start n τ) earlier = .ok state)
    (hstopped : state.running = false) (hlater : Execution.run step state later = .ok final) :
    (trace step worked state later).length ≤ 3 * n ∧
      ((∀ thread, ¬ final.CanStep thread) → ∀ thread, final.phases thread = .finished) ∧
      ∃ taken, taken.length ≤ state.inTake ∧ final.started = state.started ++ taken ∧
        state.queue = taken ++ final.queue := by
  have hsound := reached_sound hearlier
  obtain ⟨hfinal, hstill, -, taken, hlength, hstarted, hqueue⟩ :=
    drained_run hthreads hsound hstopped hlater
  refine ⟨?_, fun hquiet thread ↦ ?_, taken, by omega, hstarted, hqueue⟩
  · have hbound : (trace step worked state later).length + final.potential ≤
        state.potential + (later.map fun _ ↦ 0).sum := by
      refine length_trace_le (fun _ _ _ ↦ drained_step hthreads) ?_
        (drained_run hthreads hsound hstopped (run_nil state)) hlater
      intro middle action next hmiddle hstep
      rcases step_of_stopped hthreads hmiddle.sound hmiddle.stopped hstep with
        ⟨rfl, hnone⟩ | ⟨thread, hsome, hadvanced⟩
      · rw [hnone]
        exact le_rfl
      · rw [hsome]
        exact potential_advanced hadvanced
    have hstart : state.potential ≤ 3 * n := by
      rw [potential_stopped hstopped]
      exact total_ahead_le false state
    have hnothing : (later.map fun _ ↦ 0).sum = 0 := by simp
    omega
  · have hthread := hquiet thread
    unfold State.CanStep at hthread
    cases hphase : final.phases thread with
    | finished => rfl
    | waiting =>
      have hrunning := (hfinal.awake thread hphase).1
      rw [hstill] at hrunning
      cases hrunning
    | _ => rw [hphase] at hthread; exact (hthread trivial).elim

/-- Two tasks are queued, and one of two threads is in `take` when the pool is stopped. -/
theorem stopped_ends_two : ∃ state final,
    Execution.run step (start 2 ℕ) [.run 7 0, .run 8 0, .advance 0, .stop] = .ok state ∧
      Execution.run step state [.advance 0, .advance 0, .advance 0, .advance 1] = .ok final ∧
      (trace step worked state [.advance 0, .advance 0, .advance 0, .advance 1]).length ≤ 6 ∧
      ((∀ thread, ¬ final.CanStep thread) → ∀ thread, final.phases thread = .finished) ∧
      ∃ taken, taken.length ≤ state.inTake ∧ final.started = state.started ++ taken ∧
        state.queue = taken ++ final.queue :=
  ⟨_, _, rfl, rfl, stopped_ends (by decide)
    (show Execution.run step (start 2 ℕ) [.run 7 0, .run 8 0, .advance 0, .stop] = _ from rfl)
    rfl rfl⟩

end TradeServers.ThreadPool
