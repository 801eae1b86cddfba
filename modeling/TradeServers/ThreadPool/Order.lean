import TradeServers.Library.Overtaking
import TradeServers.ThreadPool.Monitor

/-!
# The orders in which the thread pool executes its tasks

Tasks are started in the order in which they were handed in, but several threads can finish them in
another one. A pool of `n` threads executes tasks exactly in the orders in which no task overtakes
more than `n - 1` others.

- `executed_within`: no task overtakes more than `n - 1` others.
- `execution_orders`: every such order is the order of some run.
-/

set_option autoImplicit false
set_option relaxedAutoImplicit false

namespace TradeServers.ThreadPool

open Execution Overtaking

variable {τ : Type} {n : ℕ}

theorem mem_held_iff {state : State n τ} {task : τ} :
    task ∈ state.held ↔ ∃ thread, state.phases thread = .performing task := by
  unfold State.held State.total
  rw [Multiset.mem_sum]
  constructor
  · rintro ⟨thread, -, htask⟩
    refine ⟨thread, ?_⟩
    cases hphase : state.phases thread with
    | performing other =>
      rw [hphase] at htask
      rw [Multiset.mem_singleton.mp htask]
    | _ =>
      rw [hphase] at htask
      simp [Phase.held] at htask
  · rintro ⟨thread, hphase⟩
    exact ⟨thread, Finset.mem_univ thread, by simp [hphase, Phase.held]⟩

theorem Sound.length_started {state : State n τ} (hsound : Sound state) :
    state.started.length = state.executed.length + state.held.card := by
  have hcard := congrArg Multiset.card hsound.once
  simpa using hcard

/-- A task that was started and is not executed is in some thread. -/
theorem Sound.mem_held {state : State n τ} (hsound : Sound state) {task : τ}
    (hstarted : (state.executed ++ [task]).Subperm state.started) : task ∈ state.held := by
  have hmultiset : ((state.executed ++ [task] : List τ) : Multiset τ) ≤ state.started := hstarted
  rw [hsound.once, ← Multiset.coe_add, add_le_add_iff_left] at hmultiset
  exact Multiset.singleton_le.mp hmultiset

/-! ### The tasks of the threads -/

/-- The task that a thread is in. -/
def Phase.task? : Phase τ → Option τ
  | .performing task => some task
  | _ => none

@[simp] theorem task?_eq_some_iff {phase : Phase τ} {task : τ} :
    phase.task? = some task ↔ phase = .performing task := by
  cases phase <;> simp [Phase.task?]

/-- A task that a thread is in was accepted and is not queued any more. -/
theorem Sound.started_of_performing {state : State n τ} (hsound : Sound state) {thread : Fin n}
    {task : τ} (hphase : state.phases thread = .performing task) : task ∈ state.started := by
  rw [← Multiset.mem_coe, hsound.once, Multiset.mem_add]
  exact .inr (mem_held_iff.mpr ⟨thread, hphase⟩)

/-- When no task was handed in twice, no two threads are in the same task. -/
theorem Sound.eq_of_performing {state : State n τ} (hsound : Sound state)
    (hnodup : state.accepted.Nodup) {thread other : Fin n} {task : τ}
    (hphase : state.phases thread = .performing task)
    (hother : state.phases other = .performing task) : other = thread := by
  by_contra hne
  have hstarted : state.held.Nodup := by
    rw [hsound.order] at hnodup
    have honce := Multiset.coe_nodup.mpr hnodup.of_append_left
    rw [hsound.once] at honce
    exact Multiset.nodup_of_le (Multiset.le_add_left _ _) honce
  have hmoved := total_setPhase Phase.held state thread .looping
  rw [hphase, show (Phase.looping : Phase τ).held = 0 from rfl, add_zero] at hmoved
  have hstill : task ∈ (state.setPhase thread .looping).held :=
    mem_held_iff.mpr ⟨other, by rw [setPhase_phases, if_neg hne, hother]⟩
  have hheld : (state.setPhase thread .looping).held + {task} = state.held := hmoved
  rw [← hheld, Multiset.nodup_add] at hstarted
  exact Multiset.disjoint_left.mp hstarted.2.2 hstill (Multiset.mem_singleton_self task)

/-- A thread that moves outside of its tasks is in no task before and behind. -/
theorem task?_setPhase {state : State n τ} {thread : Fin n} {phase : Phase τ}
    (hbefore : (state.phases thread).task? = none) (hafter : phase.task? = none) (other : Fin n) :
    ((state.setPhase thread phase).phases other).task? = (state.phases other).task? := by
  rw [setPhase_phases]
  split_ifs with hsame
  · rw [hsame, hbefore, hafter]
  · rfl

theorem task?_run (state : State n τ) (task : τ) (chosen : ℕ) (other : Fin n) :
    ((state.run task chosen).phases other).task? = (state.phases other).task? := by
  rcases run_cases state task chosen with ⟨-, hrun⟩ | ⟨-, -, hrun⟩ | ⟨-, -, hrun⟩
  · rw [hrun]
  · rw [hrun]
    rcases notify_cases (state.push task) chosen with ⟨-, hnotify⟩ | ⟨thread, hwaiting, hnotify⟩
    · rw [hnotify]
      rfl
    · rw [hnotify, task?_setPhase (by rw [hwaiting]; rfl) rfl]
      rfl
  · rw [hrun]

theorem task?_wake (state : State n τ) (thread other : Fin n) :
    ((state.wake thread).phases other).task? = (state.phases other).task? := by
  unfold State.wake
  split_ifs with hwaiting
  · rw [isWaiting_iff] at hwaiting
    exact task?_setPhase (by rw [hwaiting]; rfl) rfl other
  · rfl

theorem task?_stop (state : State n τ) (other : Fin n) :
    (state.stop.phases other).task? = (state.phases other).task? := by
  show (if (state.phases other).isWaiting then Phase.woken else state.phases other).task? = _
  split_ifs with hwaiting
  · rw [(isWaiting_iff _).mp hwaiting]
    rfl
  · rfl

/-! ### No task overtakes more than the other threads can hold -/

/-- A task is completed among the first that were accepted. -/
theorem Sound.within_complete {state : State n τ} (hsound : Sound state) {thread : Fin n} {task : τ}
    (hphase : state.phases thread = .performing task) :
    (state.executed ++ [task]).Subperm
      (state.accepted.take (state.executed.length + 1 + (n - 1))) := by
  have hthreads : 0 < n := thread.pos
  have htask : task ∈ state.held := mem_held_iff.mpr ⟨thread, hphase⟩
  have hstarted : (state.executed ++ [task]).Subperm state.started := by
    have hmultiset : ((state.executed ++ [task] : List τ) : Multiset τ) ≤ state.started := by
      rw [hsound.once, ← Multiset.coe_add]
      exact add_le_add_right (Multiset.singleton_le.mpr htask) _
    exact hmultiset
  refine hstarted.trans (List.IsPrefix.sublist ?_).subperm
  have hlength := hsound.length_started
  have hheld := card_held_le state
  rw [List.prefix_take_iff, hsound.order]
  refine ⟨List.prefix_append _ _, ?_⟩
  omega

theorem executed_run (state : State n τ) (hthreads : 0 < n) (task : τ) (chosen : ℕ) :
    (state.run task chosen).executed = state.executed := by
  rcases run_cases state task chosen with ⟨hnone, -⟩ | ⟨-, -, hrun⟩ | ⟨-, -, hrun⟩
  · omega
  · rw [hrun]
    rcases notify_cases (state.push task) chosen with ⟨-, hnotify⟩ | ⟨thread, -, hnotify⟩
    · rw [hnotify]
      rfl
    · rw [hnotify, setPhase_executed]
      rfl
  · rw [hrun]

theorem wake_kept (state : State n τ) (thread : Fin n) :
    (state.wake thread).accepted = state.accepted ∧
      (state.wake thread).executed = state.executed := by
  unfold State.wake
  split_ifs
  · exact ⟨rfl, rfl⟩
  · exact ⟨rfl, rfl⟩

theorem advanced_within {state next : State n τ} {thread : Fin n} (hsound : Sound state)
    (hwithin : Within (n - 1) state.accepted state.executed)
    (hadvanced : Advanced state thread next) : Within (n - 1) next.accepted next.executed := by
  cases hadvanced with
  | complete task hphase => exact within_concat_iff.mpr ⟨hwithin, hsound.within_complete hphase⟩
  | enter | leave | wait | nothing | begin => exact hwithin

theorem step_within {state next : State n τ} {action : Action n τ} (hthreads : 0 < n)
    (hsound : Sound state) (hwithin : Within (n - 1) state.accepted state.executed)
    (hstep : step state action = .ok next) : Within (n - 1) next.accepted next.executed := by
  cases action with
  | run task chosen =>
    cases hstep
    rw [executed_run state hthreads]
    rcases run_cases state task chosen with ⟨hnone, -⟩ | ⟨-, -, hrun⟩ | ⟨-, -, hrun⟩
    · omega
    · rw [hrun, (notify_kept _ chosen).1]
      exact hwithin.append [task]
    · rwa [hrun]
  | advance thread =>
    cases hstep
    by_cases hcan : state.CanStep thread
    · exact advanced_within hsound hwithin (advance_of_canStep hcan)
    · rwa [advance_of_not_canStep hcan]
  | wake thread =>
    cases hstep
    rwa [(wake_kept state thread).1, (wake_kept state thread).2]
  | throw thread => rwa [throw_eq_ok hstep]
  | stop =>
    cases hstep
    exact hwithin

theorem executed_take (state : State n τ) (thread : Fin n) :
    (state.take thread).executed = state.executed := by
  unfold State.take
  split
  · rfl
  · rfl

theorem executed_advance (state : State n τ) (thread : Fin n) :
    (state.advance thread).executed = state.executed ++ (state.phases thread).task?.toList := by
  unfold State.advance
  cases hphase : state.phases thread <;> simp [Phase.task?, executed_take]

/-- In every run no task overtakes more than the `n - 1` that the other threads can hold. -/
theorem executed_within {actions : List (Action n τ)} {final : State n τ} (hthreads : 0 < n)
    (hrun : Execution.run step (start n τ) actions = .ok final) :
    Within (n - 1) final.accepted final.executed := by
  have hpreserved : ∀ (state : State n τ) action next,
      Sound state ∧ Within (n - 1) state.accepted state.executed → step state action = .ok next →
      Sound next ∧ Within (n - 1) next.accepted next.executed :=
    fun _ _ _ hstate hstep ↦
      ⟨step_sound hstate.1 hstep, step_within hthreads hstate.1 hstate.2 hstep⟩
  exact (run_invariant hpreserved ⟨start_sound n τ, within_nil⟩ hrun).2

/-! ### Every such order occurs -/

/-- Every thread is at the head of its loop or in a task. -/
def State.Busy (state : State n τ) : Prop :=
  ∀ thread, state.phases thread = .looping ∨ ∃ task, state.phases thread = .performing task

theorem Busy.setPhase {state : State n τ} {thread : Fin n} {phase : Phase τ} (hbusy : state.Busy)
    (hphase : phase = .looping ∨ ∃ task, phase = .performing task) :
    (state.setPhase thread phase).Busy := by
  intro other
  rw [setPhase_phases]
  split_ifs
  · exact hphase
  · exact hbusy other

/-- While all threads are at the heads of their loops, tasks are only queued. -/
theorem run_handed_in (hthreads : 0 < n) (tasks : List τ) :
    Execution.run step (start n τ) (tasks.map fun task ↦ .run task 0) =
      .ok { start n τ with queue := tasks, accepted := tasks } := by
  induction tasks using List.reverseRecOn with
  | nil => rfl
  | append_singleton tasks task ih =>
    rw [List.map_append, run_append_eq_ok_iff]
    refine ⟨_, ih, run_cons_eq_ok_iff.mpr ⟨_, congrArg Except.ok ?_, rfl⟩⟩
    rcases run_cases { start n τ with queue := tasks, accepted := tasks } task 0 with
      ⟨hnone, -⟩ | ⟨-, -, hrun⟩ | ⟨-, hstopped, -⟩
    · omega
    · rw [hrun]
      rcases notify_cases (State.push { start n τ with queue := tasks, accepted := tasks } task) 0
        with ⟨-, hnotify⟩ | ⟨thread, hwaiting, -⟩
      · exact hnotify
      · cases hwaiting
    · cases hstopped

/-- A thread at the head of its loop takes the first task of the queue. -/
theorem exists_run_begin {state : State n τ} {front : τ} {rest : List τ} (hbusy : state.Busy)
    (hrunning : state.running = true) (hqueue : state.queue = front :: rest) {thread : Fin n}
    (hlooping : state.phases thread = .looping) :
    ∃ actions next, Execution.run step state actions = .ok next ∧ next.Busy ∧
      next.running = true ∧ next.queue = rest ∧ next.accepted = state.accepted ∧
      next.executed = state.executed := by
  have henter : state.advance thread = state.setPhase thread .entering := by
    simp only [State.advance, hlooping, hrunning, if_true]
  have hentering : (state.setPhase thread .entering).phases thread = .entering := by
    rw [setPhase_phases, if_pos rfl]
  have hbegin : (state.setPhase thread .entering).advance thread =
      { (state.setPhase thread .entering).setPhase thread (.performing front) with
        queue := rest, started := state.started ++ [front] } := by
    simp only [State.advance, hentering, State.take, setPhase_queue, hqueue, setPhase_started]
  refine ⟨[.advance thread, .advance thread], _,
    run_cons_eq_ok_iff.mpr ⟨_, congrArg Except.ok henter,
      run_cons_eq_ok_iff.mpr ⟨_, congrArg Except.ok hbegin, rfl⟩⟩, fun other ↦ ?_, hrunning, rfl,
      rfl, rfl⟩
  show ((state.setPhase thread .entering).setPhase thread (.performing front)).phases other = _ ∨ _
  rw [setPhase_phases, setPhase_phases]
  split_ifs
  · exact .inr ⟨front, rfl⟩
  · exact hbusy other

/-- As long as fewer tasks are held than there are threads, one of them is free. -/
theorem exists_looping {state : State n τ} (hbusy : state.Busy) (hheld : state.held.card < n) :
    ∃ thread, state.phases thread = .looping := by
  by_contra hnone
  push Not at hnone
  have hone : ∀ thread, (state.phases thread).held.card = 1 := by
    intro thread
    obtain hlooping | ⟨task, hphase⟩ := hbusy thread
    · exact (hnone thread hlooping).elim
    · rw [hphase]
      exact Multiset.card_singleton task
  have hcard : state.held.card = n := by
    unfold State.held State.total
    rw [Multiset.card_sum]
    simp [hone]
  omega

/-- A thread completes the task that it is in. -/
theorem exists_run_held {state : State n τ} {task : τ} (hbusy : state.Busy)
    (hrunning : state.running = true) (hheld : task ∈ state.held) :
    ∃ actions next, Execution.run step state actions = .ok next ∧ next.Busy ∧
      next.running = true ∧ next.accepted = state.accepted ∧
      next.executed = state.executed ++ [task] := by
  obtain ⟨thread, hphase⟩ := mem_held_iff.mp hheld
  have hcomplete : state.advance thread =
      { state.setPhase thread .looping with executed := state.executed ++ [task] } := by
    simp only [State.advance, hphase]
  refine ⟨[.advance thread], _, run_cons_eq_ok_iff.mpr ⟨_, congrArg Except.ok hcomplete, rfl⟩,
    fun other ↦ ?_, hrunning, rfl, rfl⟩
  exact (Busy.setPhase hbusy (.inl rfl)) other

/-- The task that is to be executed next is in a thread, or a free thread can start the tasks in
front of it. -/
theorem exists_run_complete (hthreads : 0 < n) {queue : List τ} {task : τ} :
    ∀ {state : State n τ},
    state.queue = queue → Sound state → state.Busy → state.running = true →
    (state.executed ++ [task]).Subperm
      (state.accepted.take (state.executed.length + 1 + (n - 1))) →
    ∃ actions next, Execution.run step state actions = .ok next ∧ next.Busy ∧
      next.running = true ∧ next.accepted = state.accepted ∧
      next.executed = state.executed ++ [task] := by
  induction queue with
  | nil =>
    intro state hqueue hsound hbusy hrunning hwithin
    have hstarted : state.accepted = state.started := by
      rw [hsound.order, hqueue, List.append_nil]
    rw [hstarted] at hwithin
    exact exists_run_held hbusy hrunning
      (hsound.mem_held (hwithin.trans (List.take_sublist _ _).subperm))
  | cons front rest ih =>
    intro state hqueue hsound hbusy hrunning hwithin
    by_cases hheld : task ∈ state.held
    · exact exists_run_held hbusy hrunning hheld
    have hfree : state.held.card < n := by
      by_contra hfull
      have hlength := hsound.length_started
      -- With all threads in tasks, everything that may come next was started.
      have hprefix : state.accepted.take (state.executed.length + 1 + (n - 1)) <+:
          state.started := by
        rw [hsound.order, List.take_append_of_le_length (by omega)]
        exact List.take_prefix _ _
      exact hheld (hsound.mem_held (hwithin.trans hprefix.sublist.subperm))
    obtain ⟨thread, hlooping⟩ := exists_looping hbusy hfree
    obtain ⟨first, middle, hfirst, hmiddle, hkeeps, hrest, haccepted, hexecuted⟩ :=
      exists_run_begin hbusy hrunning hqueue hlooping
    rw [← haccepted, ← hexecuted] at hwithin
    obtain ⟨later, next, hlater, hnext, hstill, hsame, hdone⟩ :=
      ih hrest (run_invariant (fun _ _ _ ↦ step_sound) hsound hfirst) hmiddle hkeeps hwithin
    exact ⟨first ++ later, next, run_append_eq_ok_iff.mpr ⟨middle, hfirst, hlater⟩, hnext, hstill,
      hsame.trans haccepted, hexecuted ▸ hdone⟩

/-- A pool that runs executes the tasks it accepted exactly in the orders in which none overtakes
more than `n - 1` others. -/
theorem execution_orders {accepted executed : List τ} (hthreads : 0 < n) :
    (∃ actions final, Execution.run step (start n τ) actions = .ok final ∧
      final.accepted = accepted ∧ final.executed = executed) ↔
      Within (n - 1) accepted executed := by
  constructor
  · rintro ⟨actions, final, hrun, rfl, rfl⟩
    exact executed_within hthreads hrun
  · intro hwithin
    have hreached : ∃ actions final, Execution.run step (start n τ) actions = .ok final ∧
        final.Busy ∧ final.running = true ∧ final.accepted = accepted ∧
        final.executed = executed := by
      induction executed using List.reverseRecOn with
      | nil =>
        exact ⟨_, _, run_handed_in hthreads accepted, fun _ ↦ .inl rfl, rfl, rfl, rfl⟩
      | append_singleton executed task ih =>
        obtain ⟨hbefore, hlast⟩ := within_concat_iff.mp hwithin
        obtain ⟨first, middle, hfirst, hbusy, hrunning, rfl, rfl⟩ := ih hbefore
        obtain ⟨later, final, hlater, hfinal, hkeeps, haccepted, hexecuted⟩ :=
          exists_run_complete hthreads rfl (reached_sound hfirst) hbusy hrunning hlast
        exact ⟨first ++ later, final, run_append_eq_ok_iff.mpr ⟨middle, hfirst, hlater⟩, hfinal,
          hkeeps, haccepted, hexecuted⟩
    obtain ⟨actions, final, hrun, -, -, haccepted, hexecuted⟩ := hreached
    exact ⟨actions, final, hrun, haccepted, hexecuted⟩

/-- With two threads the second task can be done first, but the third cannot. -/
theorem execution_orders_two :
    (∃ actions final, Execution.run step (start 2 ℕ) actions = .ok final ∧
      final.accepted = [1, 2, 3] ∧ final.executed = [2, 3, 1]) ∧
    ¬ ∃ actions final, Execution.run step (start 2 ℕ) actions = .ok final ∧
      final.accepted = [1, 2, 3] ∧ final.executed = [3, 1, 2] := by
  rw [execution_orders (by decide), execution_orders (by decide)]
  unfold Within
  decide

end TradeServers.ThreadPool
