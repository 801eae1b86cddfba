import TradeServers.LogTimeServer.Workers
import TradeServers.ThreadPool.Monitor

/-!
# The worker threads and the monitor of the thread pool

`Workers` says of the pool only that a task arrives, is taken from the front of the queue by a
worker that holds none, and is dealt with at some later time. The critical sections of `ThreadPool`,
with their condition variable, do exactly this: every run of the monitor in which no download is
without a connection is such a run (`monitor_refines_workers`), and every such run is one of the
monitor (`workers_realised`).
-/

set_option autoImplicit false
set_option relaxedAutoImplicit false

namespace TradeServers.LogTimeServer.Threads

open Execution SqlLiteral Workers

variable {σ : Type} {n : ℕ}

/-- What the workers see of a step of the monitor. The answers are those that the database gives to
the tasks, in the order in which they end. -/
def event (answers : ℕ → Answers) (state : ThreadPool.State n Task) :
    ThreadPool.Action n Task → Option Event
  | .run task _ => if state.running then some (.arrive task) else none
  | .advance thread =>
    match state.phases thread, state.queue with
    | .entering, _ :: _ => some (.take thread.val)
    | .woken, _ :: _ => some (.take thread.val)
    | .performing _, _ => some (.execute thread.val (answers state.executed.length))
    | _, _ => none
  | _ => none

/-- A state of the workers that the monitor implements: a worker holds the task that its thread is
performing. -/
structure Refines (state : ThreadPool.State n Task) (upper : Workers.State σ) : Prop where
  arrived : upper.arrived = state.accepted
  queue : upper.queue = state.queue
  executed : upper.executed.map Prod.fst = state.executed
  holders : (upper.taken.map Prod.fst).Nodup
  held : ∀ entry, entry ∈ upper.taken ↔
    ∃ thread : Fin n, entry.1 = thread.val ∧ state.phases thread = .performing entry.2

theorem start_refines (n : ℕ) (db : σ) : Refines (ThreadPool.start n Task) (start db) := by
  refine ⟨rfl, rfl, rfl, List.nodup_nil, fun entry ↦ ⟨fun hentry ↦ ?_, ?_⟩⟩
  · cases hentry
  · rintro ⟨thread, -, hphase⟩
    cases hphase

/-- Steps that only move threads without tasks are invisible. -/
theorem Refines.of_phases {state next : ThreadPool.State n Task} {upper : Workers.State σ}
    (hrefines : Refines state upper) (haccepted : next.accepted = state.accepted)
    (hqueue : next.queue = state.queue) (hexecuted : next.executed = state.executed)
    (hphases : ∀ thread task, next.phases thread = .performing task ↔
      state.phases thread = .performing task) : Refines next upper := by
  obtain ⟨harrived, hsame, hdone, hholders, hheld⟩ := hrefines
  refine ⟨harrived.trans haccepted.symm, hsame.trans hqueue.symm, hdone.trans hexecuted.symm,
    hholders, fun entry ↦ (hheld entry).trans ?_⟩
  simp only [hphases]

theorem performing_setPhase {state : ThreadPool.State n Task} {thread other : Fin n}
    {phase : ThreadPool.Phase Task} {task : Task}
    (hbefore : ∀ task, state.phases thread ≠ .performing task)
    (hafter : ∀ task, phase ≠ .performing task) :
    (state.setPhase thread phase).phases other = .performing task ↔
      state.phases other = .performing task := by
  rw [ThreadPool.setPhase_phases]
  split_ifs with hsame
  · rw [hsame]
    exact ⟨fun hphase ↦ (hafter task hphase).elim, fun hphase ↦ (hbefore task hphase).elim⟩
  · exact Iff.rfl

theorem Refines.setPhase {state : ThreadPool.State n Task} {upper : Workers.State σ}
    {thread : Fin n} {phase : ThreadPool.Phase Task} (hrefines : Refines state upper)
    (hbefore : ∀ task, state.phases thread ≠ .performing task)
    (hafter : ∀ task, phase ≠ .performing task) : Refines (state.setPhase thread phase) upper :=
  hrefines.of_phases rfl rfl rfl fun _ _ ↦ performing_setPhase hbefore hafter

theorem Refines.notify {state : ThreadPool.State n Task} {upper : Workers.State σ}
    (hrefines : Refines state upper) (chosen : ℕ) : Refines (state.notify chosen) upper := by
  rcases ThreadPool.notify_cases state chosen with ⟨-, hnotify⟩ | ⟨thread, hwaiting, hnotify⟩
  · rw [hnotify]
    exact hrefines
  · rw [hnotify]
    exact hrefines.setPhase (by simp [hwaiting]) (by simp)

theorem Refines.push {state : ThreadPool.State n Task} {upper : Workers.State σ}
    (hrefines : Refines state upper) (task : Task) :
    Refines (state.push task) (upper.run task) := by
  obtain ⟨harrived, hqueue, hdone, hholders, hheld⟩ := hrefines
  refine ⟨?_, ?_, hdone, hholders, hheld⟩
  · rw [State.run, harrived]
    rfl
  · rw [State.run, hqueue]
    rfl

theorem Refines.idle {state : ThreadPool.State n Task} {upper : Workers.State σ} {thread : Fin n}
    (hrefines : Refines state upper) (hphase : ∀ task, state.phases thread ≠ .performing task) :
    upper.Idle n thread.val := by
  refine ⟨thread.isLt, fun entry hentry hholder ↦ ?_⟩
  obtain ⟨other, hother, htask⟩ := (hrefines.held entry).mp hentry
  obtain rfl : thread = other := Fin.ext (hholder.symm.trans hother)
  exact hphase entry.2 htask

/-- A thread that pops the front of the queue is a worker that takes it. -/
theorem Refines.begin {state : ThreadPool.State n Task} {upper : Workers.State σ} {thread : Fin n}
    {front : Task} {rest : List Task} (hrefines : Refines state upper)
    (hphase : ∀ task, state.phases thread ≠ .performing task)
    (hqueue : state.queue = front :: rest) :
    Refines { state.setPhase thread (.performing front) with
      queue := rest, started := state.started ++ [front] } (upper.take n thread.val) := by
  have hidle := hrefines.idle hphase
  have htake : upper.take n thread.val =
      { upper with queue := rest, taken := upper.taken ++ [(thread.val, front)] } := by
    rw [State.take, if_pos hidle, hrefines.queue, hqueue]
  obtain ⟨harrived, hsame, hdone, hholders, hheld⟩ := hrefines
  rw [htake]
  refine ⟨harrived, rfl, hdone, ?_, fun entry ↦ ?_⟩
  · rw [List.map_append, List.nodup_append]
    refine ⟨hholders, List.nodup_singleton _, fun worker hworker other hother ↦ ?_⟩
    obtain ⟨entry, hentry, rfl⟩ := List.mem_map.mp hworker
    rw [List.map_singleton, List.mem_singleton] at hother
    rw [hother]
    exact hidle.2 entry hentry
  · show entry ∈ upper.taken ++ [(thread.val, front)] ↔ ∃ other : Fin n, entry.1 = other.val ∧
      (state.setPhase thread (.performing front)).phases other = .performing entry.2
    rw [List.mem_append, List.mem_singleton, hheld]
    constructor
    · rintro (⟨other, hother, htask⟩ | rfl)
      · have hdiffers : other ≠ thread := fun heq ↦ hphase _ (heq ▸ htask)
        exact ⟨other, hother, by rw [ThreadPool.setPhase_phases, if_neg hdiffers, htask]⟩
      · exact ⟨thread, rfl, by rw [ThreadPool.setPhase_phases, if_pos rfl]⟩
    · rintro ⟨other, hother, htask⟩
      rw [ThreadPool.setPhase_phases] at htask
      split_ifs at htask with heq
      · have hfront : front = entry.2 := by simpa using htask
        exact .inr (Prod.ext (hother.trans (congrArg Fin.val heq)) hfront.symm)
      · exact .inl ⟨other, hother, htask⟩

section Database

variable {server : MysqlServer σ}

/-- A worker whose thread performs a task deals with this task. -/
theorem Refines.execute_cases {state : ThreadPool.State n Task} {upper after : Workers.State σ}
    {thread : Fin n} {task : Task} {answers : Answers} (hrefines : Refines state upper)
    (hphase : state.phases thread = .performing task)
    (hexecute : execute server upper thread.val answers = .ok after) :
    ∃ first rest db, upper.taken = first ++ (thread.val, task) :: rest ∧ after = { upper with
      taken := first ++ rest, executed := upper.executed ++ [(task, answers)], db := db } := by
  have hmem : (thread.val, task) ∈ upper.taken := (hrefines.held _).mpr ⟨thread, rfl, hphase⟩
  have hfind : upper.taken.find? (fun entry ↦ entry.1 = thread.val) = some (thread.val, task) := by
    cases hfound : upper.taken.find? fun entry ↦ entry.1 = thread.val with
    | none =>
      rw [List.find?_eq_none] at hfound
      exact (hfound _ hmem (by simp)).elim
    | some entry =>
      have hholder : entry.1 = thread.val := by simpa using List.find?_some hfound
      obtain ⟨other, hother, htask⟩ := (hrefines.held entry).mp (List.mem_of_find?_eq_some hfound)
      obtain rfl : thread = other := Fin.ext (hholder.symm.trans hother)
      rw [hphase] at htask
      have hsame : task = entry.2 := by simpa using htask
      rw [hsame, ← hholder]
  obtain ⟨-, first, rest, htaken, hfirst⟩ := List.find?_eq_some_iff_append.mp hfind
  have herase : upper.taken.eraseP (fun entry ↦ entry.1 = thread.val) = first ++ rest := by
    rw [htaken, List.eraseP_append_right _ (by simpa using hfirst)]
    simp
  unfold execute at hexecute
  rw [hfind, herase] at hexecute
  dsimp only at hexecute
  split at hexecute
  · cases hexecute
  · rename_i db action _
    exact ⟨first, rest, db, htaken, (Except.ok.inj hexecute).symm⟩

/-- A thread that is through with its task is a worker that dealt with it. -/
theorem Refines.complete {state : ThreadPool.State n Task} {upper after : Workers.State σ}
    {thread : Fin n} {task : Task} {answers : Answers} (hrefines : Refines state upper)
    (hphase : state.phases thread = .performing task)
    (hexecute : execute server upper thread.val answers = .ok after) :
    Refines { state.setPhase thread .looping with executed := state.executed ++ [task] } after := by
  obtain ⟨first, rest, db, htaken, rfl⟩ := hrefines.execute_cases hphase hexecute
  obtain ⟨harrived, hqueue, hdone, hholders, hheld⟩ := hrefines
  rw [htaken, List.map_append, List.map_cons] at hholders
  have hothers : ∀ entry ∈ first ++ rest, entry.1 ≠ thread.val := by
    intro entry hentry hholder
    have hkeys := List.nodup_middle.mp hholders
    rw [List.nodup_cons, ← List.map_append] at hkeys
    exact hkeys.1 (List.mem_map.mpr ⟨entry, hentry, hholder⟩)
  refine ⟨harrived, hqueue, ?_, ?_, fun entry ↦ ?_⟩
  · show (upper.executed ++ [(task, answers)]).map Prod.fst = state.executed ++ [task]
    rw [List.map_append, hdone]
    rfl
  · show ((first ++ rest).map Prod.fst).Nodup
    rw [List.map_append]
    exact (List.nodup_cons.mp (List.nodup_middle.mp hholders)).2
  · show entry ∈ first ++ rest ↔ ∃ other : Fin n, entry.1 = other.val ∧
      (state.setPhase thread .looping).phases other = .performing entry.2
    constructor
    · intro hentry
      have hbefore : entry ∈ upper.taken := by
        rw [htaken]
        simp only [List.mem_append, List.mem_cons] at hentry ⊢
        tauto
      obtain ⟨other, hother, hperforming⟩ := (hheld entry).mp hbefore
      have hdiffers : other ≠ thread := fun heq ↦ hothers entry hentry (heq ▸ hother)
      exact ⟨other, hother, by rw [ThreadPool.setPhase_phases, if_neg hdiffers, hperforming]⟩
    · rintro ⟨other, hother, hperforming⟩
      rw [ThreadPool.setPhase_phases] at hperforming
      split_ifs at hperforming with heq
      have hentry := (hheld entry).mpr ⟨other, hother, hperforming⟩
      have hdiffers : entry ≠ (thread.val, task) := by
        rintro rfl
        exact heq (Fin.ext hother.symm)
      rw [htaken] at hentry
      simp only [List.mem_append, List.mem_cons] at hentry ⊢
      tauto

/-- What a thread does is what its worker does then. -/
theorem advanced_refines {answers : ℕ → Answers} {state next : ThreadPool.State n Task}
    {upper after : Workers.State σ} {thread : Fin n} (hrefines : Refines state upper)
    (hadvanced : ThreadPool.Advanced state thread next)
    (habove : run (Workers.step server n) upper (event answers state (.advance thread)).toList =
      .ok after) : Refines next after := by
  cases hadvanced with
  | enter hphase hrunning =>
    simp only [event, hphase, Option.toList_none] at habove
    cases habove
    exact hrefines.setPhase (by simp [hphase]) (by simp)
  | leave hphase hstopped =>
    simp only [event, hphase, Option.toList_none] at habove
    cases habove
    exact hrefines.setPhase (by simp [hphase]) (by simp)
  | wait hphase hqueue hrunning =>
    have hnone : event answers state (.advance thread) = none := by
      rcases hphase with hphase | hphase <;> simp only [event, hphase, hqueue]
    rw [hnone] at habove
    cases habove
    exact hrefines.setPhase (by rcases hphase with hphase | hphase <;> simp [hphase]) (by simp)
  | nothing hphase hqueue hstopped =>
    have hnone : event answers state (.advance thread) = none := by
      rcases hphase with hphase | hphase <;> simp only [event, hphase, hqueue]
    rw [hnone] at habove
    cases habove
    exact hrefines.setPhase (by rcases hphase with hphase | hphase <;> simp [hphase]) (by simp)
  | begin front rest hphase hqueue =>
    have htake : event answers state (.advance thread) = some (.take thread.val) := by
      rcases hphase with hphase | hphase <;> simp only [event, hphase, hqueue]
    rw [htake] at habove
    cases habove
    exact hrefines.begin (by rcases hphase with hphase | hphase <;> simp [hphase]) hqueue
  | complete task hphase =>
    have hdone : event answers state (.advance thread) =
        some (.execute thread.val (answers state.executed.length)) := by
      simp only [event, hphase]
    rw [hdone, Option.toList_some, run_cons_eq_ok_iff] at habove
    obtain ⟨middle, hexecute, hnone⟩ := habove
    cases hnone
    exact hrefines.complete hphase hexecute

/-- Every step of the monitor is the step of the workers that it shows, or none. -/
theorem step_refines {answers : ℕ → Answers} {state next : ThreadPool.State n Task}
    {upper after : Workers.State σ} {action : ThreadPool.Action n Task} (hthreads : 0 < n)
    (hrefines : Refines state upper) (hstep : ThreadPool.step state action = .ok next)
    (habove : run (Workers.step server n) upper (event answers state action).toList = .ok after) :
    Refines next after := by
  cases action with
  | run task chosen =>
    cases hstep
    rcases ThreadPool.run_cases state task chosen with
      ⟨hnone, -⟩ | ⟨-, hrunning, hrun⟩ | ⟨-, hstopped, hrun⟩
    · exact (hthreads.ne' hnone).elim
    · rw [event, if_pos hrunning] at habove
      cases habove
      rw [hrun]
      exact (hrefines.push task).notify chosen
    · rw [event, if_neg (by simp [hstopped])] at habove
      cases habove
      rw [hrun]
      exact hrefines
  | advance thread =>
    cases hstep
    by_cases hcan : state.CanStep thread
    · exact advanced_refines hrefines (ThreadPool.advance_of_canStep hcan) habove
    · have hnone : event answers state (.advance thread) = none := by
        unfold ThreadPool.State.CanStep at hcan
        cases hphase : state.phases thread <;> simp_all [event]
      rw [hnone] at habove
      cases habove
      rw [ThreadPool.advance_of_not_canStep hcan]
      exact hrefines
  | wake thread =>
    cases hstep
    cases habove
    show Refines (state.wake thread) upper
    unfold ThreadPool.State.wake
    split_ifs with hwaiting
    · rw [ThreadPool.isWaiting_iff] at hwaiting
      exact hrefines.setPhase (by simp [hwaiting]) (by simp)
    · exact hrefines
  | throw thread =>
    cases habove
    rw [ThreadPool.throw_eq_ok hstep]
    exact hrefines
  | stop =>
    cases hstep
    cases habove
    refine hrefines.of_phases rfl rfl rfl fun thread task ↦ ?_
    show (if (state.phases thread).isWaiting then ThreadPool.Phase.woken else
      state.phases thread) = _ ↔ _
    split_ifs with hwaiting
    · rw [ThreadPool.isWaiting_iff] at hwaiting
      simp [hwaiting]
    · exact Iff.rfl

/-- Every download that the threads are through with had a connection. -/
def Served (answers : ℕ → Answers) (state : ThreadPool.State n Task) : Prop :=
  ∀ index task, state.executed[index]? = some task → downloadedBy task.msg ≠ none →
    (answers index).connected = true

/-- What the threads were through with before a step, they are through with behind it. -/
theorem served_of_step {answers : ℕ → Answers} {state next : ThreadPool.State n Task}
    {action : ThreadPool.Action n Task} (hstep : ThreadPool.step state action = .ok next)
    (hserved : Served answers next) : Served answers state := by
  obtain ⟨done, hdone⟩ := ThreadPool.step_executed hstep
  intro index task hexecuted
  refine hserved index task ?_
  rw [← hdone, List.getElem?_append_left (List.getElem?_eq_some_iff.mp hexecuted).1]
  exact hexecuted

/-- An execution is seen when a thread is through with its task. -/
theorem event_eq_execute {answers : ℕ → Answers} {state : ThreadPool.State n Task}
    {action : ThreadPool.Action n Task} {worker : ℕ} {given : Answers}
    (hevent : event answers state action = some (.execute worker given)) :
    ∃ thread task, action = .advance thread ∧ state.phases thread = .performing task ∧
      worker = thread.val ∧ given = answers state.executed.length := by
  cases action with
  | advance thread =>
    unfold event at hevent
    dsimp only at hevent
    split at hevent
    case h_3 task hphase =>
      injection hevent with hexecute
      injection hexecute with hworker hgiven
      exact ⟨thread, task, rfl, hphase, hworker.symm, hgiven.symm⟩
    all_goals cases hevent
  | run task chosen =>
    simp only [event] at hevent
    split_ifs at hevent
    cases hevent
  | _ => cases hevent

/-- What is seen of a step the workers can do, when the download that ends in it had a
connection. -/
theorem exists_visible {answers : ℕ → Answers} {state next : ThreadPool.State n Task}
    {upper : Workers.State σ} {action : ThreadPool.Action n Task} (hrefines : Refines state upper)
    (hserved : Served answers next) (hstep : ThreadPool.step state action = .ok next) :
    ∃ after, run (Workers.step server n) upper (event answers state action).toList = .ok after := by
  cases hevent : event answers state action with
  | none => exact ⟨upper, rfl⟩
  | some happens =>
    cases happens with
    | arrive task => exact ⟨_, rfl⟩
    | take worker => exact ⟨_, rfl⟩
    | execute worker given =>
      obtain ⟨thread, task, rfl, hphase, rfl, rfl⟩ := event_eq_execute hevent
      have hexecuted : next.executed = state.executed ++ [task] := by
        cases hstep
        unfold ThreadPool.State.advance
        rw [hphase]
      have hconnected : ∀ held, (thread.val, held) ∈ upper.taken → downloadedBy held.msg ≠ none →
          (answers state.executed.length).connected = true := by
        intro held hheld
        obtain ⟨other, hother, hperforming⟩ := (hrefines.held _).mp hheld
        obtain rfl : thread = other := Fin.ext hother
        obtain rfl : task = held := by simpa [hphase] using hperforming
        refine hserved state.executed.length task ?_
        rw [hexecuted, List.getElem?_concat_length]
      obtain ⟨after, hexecute⟩ := execute_ok server hconnected
      exact ⟨after, run_cons_ok hexecute []⟩

/-- Every run of the monitor is a run of the workers that ends in a corresponding state, as long as
every download that was executed had a connection: the tasks have their effects in an order that
`Workers` admits. A download without one ends the run of the server itself. -/
theorem monitor_refines_workers (server : MysqlServer σ) (answers : ℕ → Answers) (db : σ)
    {actions : List (ThreadPool.Action n Task)} {final : ThreadPool.State n Task}
    (hthreads : 0 < n)
    (hrun : run ThreadPool.step (ThreadPool.start n Task) actions = .ok final)
    (hserved : Served answers final) :
    ∃ upper, run (Workers.step server n) (start db)
        (trace ThreadPool.step (event answers) (ThreadPool.start n Task) actions) = .ok upper ∧
      Refines final upper := by
  have hmatched : ∀ (state : ThreadPool.State n Task) action next (upper : Workers.State σ),
      Refines state upper → Served answers next → ThreadPool.step state action = .ok next →
      ∃ after, run (Workers.step server n) upper (event answers state action).toList = .ok after ∧
        Refines next after := by
    intro state action next upper hrefines hserved hstep
    obtain ⟨after, habove⟩ := exists_visible hrefines hserved hstep
    exact ⟨after, habove, step_refines hthreads hrefines hstep habove⟩
  exact run_simulates_of (fun _ _ _ ↦ served_of_step) hmatched (start_refines n db) hserved hrun

/-! ### Realising a run of the workers -/

/-- The states of a running monitor that implement a state of the workers. -/
structure Implements (state : ThreadPool.State n Task) (upper : Workers.State σ) : Prop where
  refines : Refines state upper
  sound : ThreadPool.Sound state
  running : state.running = true

/-- A thread whose worker is idle can get into `take` with the mutex, unseen. -/
theorem Implements.enter {state : ThreadPool.State n Task} {upper : Workers.State σ}
    {thread : Fin n} (himplements : Implements state upper) (hidle : upper.Idle n thread.val) :
    ∃ actions middle, run ThreadPool.step state actions = .ok middle ∧
      Implements middle upper ∧
      (middle.phases thread = .entering ∨ middle.phases thread = .woken) := by
  obtain ⟨hrefines, hsound, hrunning⟩ := himplements
  cases hphase : state.phases thread with
  | looping =>
    have hadvance : state.advance thread = state.setPhase thread .entering := by
      unfold ThreadPool.State.advance
      rw [hphase, hrunning]
      rfl
    have hstep : ThreadPool.step state (.advance thread) = .ok (state.setPhase thread .entering) :=
      congrArg Except.ok hadvance
    refine ⟨[.advance thread], _, run_cons_ok hstep [], ⟨?_, ThreadPool.step_sound hsound hstep,
      hrunning⟩, .inl ?_⟩
    · exact hrefines.setPhase (by simp [hphase]) (by simp)
    · rw [ThreadPool.setPhase_phases, if_pos rfl]
  | entering => exact ⟨[], state, rfl, ⟨hrefines, hsound, hrunning⟩, .inl hphase⟩
  | woken => exact ⟨[], state, rfl, ⟨hrefines, hsound, hrunning⟩, .inr hphase⟩
  | waiting =>
    have hstep : ThreadPool.step state (.wake thread) = .ok (state.setPhase thread .woken) := by
      show Except.ok (state.wake thread) = _
      rw [ThreadPool.State.wake, hphase]
      rfl
    refine ⟨[.wake thread], _, run_cons_ok hstep [], ⟨?_, ThreadPool.step_sound hsound hstep,
      hrunning⟩, .inr ?_⟩
    · exact hrefines.setPhase (by simp [hphase]) (by simp)
    · rw [ThreadPool.setPhase_phases, if_pos rfl]
  | performing task =>
    have hheld := (hrefines.held (thread.val, task)).mpr ⟨thread, rfl, hphase⟩
    exact (hidle.2 _ hheld rfl).elim
  | finished =>
    have hstopped := hsound.leaving thread hphase
    rw [hrunning] at hstopped
    cases hstopped

/-- What the workers can do in a step, the monitor can do in a few. -/
theorem Implements.step {state : ThreadPool.State n Task} {upper after : Workers.State σ}
    {happens : Event} (hthreads : 0 < n) (himplements : Implements state upper)
    (hstep : Workers.step server n upper happens = .ok after) :
    ∃ actions next, run ThreadPool.step state actions = .ok next ∧ Implements next after := by
  cases happens with
  | arrive task =>
    cases hstep
    obtain ⟨hrefines, hsound, hrunning⟩ := himplements
    have harrives : ThreadPool.step state (.run task 0) = .ok (state.run task 0) := rfl
    have hkept := (ThreadPool.step_of_running hthreads hrunning harrives).2
    have habove : run (Workers.step server n) upper
        (event (fun _ ↦ ⟨true, true⟩) state (.run task 0)).toList = .ok (upper.run task) := by
      rw [event, if_pos hrunning]
      rfl
    exact ⟨[.run task 0], _, run_cons_ok harrives [],
      step_refines hthreads hrefines harrives habove, ThreadPool.handed_in_sound hsound task 0,
      hkept⟩
  | take worker =>
    cases hstep
    rcases take_cases n upper worker with hsame | ⟨hidle, front, rest, hqueue, -⟩
    · rw [hsame]
      exact ⟨[], state, rfl, himplements⟩
    · let thread : Fin n := ⟨worker, hidle.1⟩
      have hthread : upper.Idle n thread.val := hidle
      obtain ⟨actions, middle, hrun, himplements, hphase⟩ := himplements.enter hthread
      obtain ⟨hrefines, hsound, hrunning⟩ := himplements
      have hfront : middle.queue = front :: rest := hrefines.queue.symm.trans hqueue
      have hadvances : ThreadPool.step middle (.advance thread) = .ok (middle.advance thread) := rfl
      have habove : run (Workers.step server n) upper
          (event (fun _ ↦ ⟨true, true⟩) middle (.advance thread)).toList =
            .ok (upper.take n worker) := by
        have htake : event (fun _ ↦ ⟨true, true⟩) middle (.advance thread) =
            some (.take worker) := by
          rcases hphase with hphase | hphase <;> simp only [event, hphase, hfront] <;> rfl
        rw [htake]
        rfl
      have hlast : run ThreadPool.step middle [.advance thread] = .ok (middle.advance thread) := rfl
      refine ⟨actions ++ [.advance thread], middle.advance thread,
        run_append_eq_ok_iff.mpr ⟨middle, hrun, hlast⟩,
        step_refines hthreads hrefines hadvances habove, ThreadPool.step_sound hsound hadvances, ?_⟩
      rw [(ThreadPool.advance_kept middle thread).2, hrunning]
  | execute worker answers =>
    rcases Workers.execute_cases server hstep with
      rfl | ⟨first, task, rest, db, action, htaken, -, -⟩
    · exact ⟨[], state, rfl, himplements⟩
    · obtain ⟨hrefines, hsound, hrunning⟩ := himplements
      have hmem : (worker, task) ∈ upper.taken := by
        rw [htaken]
        simp
      obtain ⟨thread, rfl, hphase⟩ := (hrefines.held _).mp hmem
      have hadvances : ThreadPool.step state (.advance thread) = .ok (state.advance thread) := rfl
      have habove : run (Workers.step server n) upper
          (event (fun _ ↦ answers) state (.advance thread)).toList = .ok after := by
        have hdone : event (fun _ ↦ answers) state (.advance thread) =
            some (.execute thread.val answers) := by
          simp only [event, hphase]
        rw [hdone]
        exact run_cons_ok hstep []
      refine ⟨[.advance thread], state.advance thread, rfl,
        step_refines hthreads hrefines hadvances habove, ThreadPool.step_sound hsound hadvances, ?_⟩
      rw [(ThreadPool.advance_kept state thread).2, hrunning]

/-- Every run of the workers is one of the monitor. -/
theorem workers_realised (db : σ) {events : List Event} {upper : Workers.State σ}
    (hthreads : 0 < n) (hrun : run (Workers.step server n) (start db) events = .ok upper) :
    ∃ actions final, run ThreadPool.step (ThreadPool.start n Task) actions = .ok final ∧
      Refines final upper := by
  have hpreserved : ∀ (lower : Workers.State σ) happens after,
      (∃ actions state, run ThreadPool.step (ThreadPool.start n Task) actions = .ok state ∧
        Implements state lower) → Workers.step server n lower happens = .ok after →
      ∃ actions state, run ThreadPool.step (ThreadPool.start n Task) actions = .ok state ∧
        Implements state after := by
    rintro lower happens after ⟨earlier, state, hearlier, himplements⟩ hstep
    obtain ⟨later, next, hlater, hnext⟩ := himplements.step hthreads hstep
    exact ⟨earlier ++ later, next, run_append_eq_ok_iff.mpr ⟨state, hearlier, hlater⟩, hnext⟩
  obtain ⟨actions, final, hfinal, himplements⟩ := run_invariant hpreserved
    ⟨[], _, rfl, start_refines n db, ThreadPool.start_sound n Task, rfl⟩ hrun
  exact ⟨actions, final, hfinal, himplements.refines⟩

end Database

/-- One of eight threads takes an upload and ends it, and another upload is queued. -/
theorem monitor_refines_workers_upload : ∃ final upper,
    run ThreadPool.step (ThreadPool.start 8 Task)
      [.run (annualUpload [1]) 0, .advance 0, .advance 0, .advance 0,
        .run (annualUpload [2]) 0] = .ok final ∧
      final.executed = [annualUpload [1]] ∧
      run (Workers.step .ofTable 8) (start fun _ ↦ none)
        [.arrive (annualUpload [1]), .take 0, .execute 0 ⟨true, true⟩,
          .arrive (annualUpload [2])] = .ok upper ∧
      Refines final upper := by
  have hrun : run ThreadPool.step (ThreadPool.start 8 Task) [.run (annualUpload [1]) 0,
      .advance 0, .advance 0, .advance 0, .run (annualUpload [2]) 0] = .ok _ := rfl
  obtain ⟨upper, habove, hrefines⟩ := monitor_refines_workers .ofTable (fun _ ↦ ⟨true, true⟩)
    (fun _ ↦ none) (by decide) hrun fun _ _ _ _ ↦ rfl
  exact ⟨_, upper, hrun, rfl, habove, hrefines⟩

/-- The later of two uploads is stored first: the monitor has such a run. -/
theorem workers_realised_overtaking : ∃ upper,
    run (Workers.step .ofTable 8) (start fun _ ↦ none)
      [.arrive (annualUpload [1]), .arrive (annualUpload [2]), .take 0, .take 1,
        .execute 1 ⟨true, true⟩] = .ok upper ∧
      ∃ actions final, run ThreadPool.step (ThreadPool.start 8 Task) actions = .ok final ∧
        Refines final upper := by
  let held : Workers.State (DocumentKey → Option Bytes) :=
    ⟨[annualUpload [1], annualUpload [2]], [], [(0, annualUpload [1]), (1, annualUpload [2])], [],
      fun _ ↦ none⟩
  obtain ⟨db, hexecute, -⟩ := execute_upload .ofTable held 1 1 [2] annual_carried_2024 rfl
  have hrun : run (Workers.step .ofTable 8) (start fun _ ↦ none)
      [.arrive (annualUpload [1]), .arrive (annualUpload [2]), .take 0, .take 1,
        .execute 1 ⟨true, true⟩] = .ok _ :=
    run_cons_eq_ok_iff.mpr ⟨_, rfl, run_cons_eq_ok_iff.mpr ⟨_, rfl,
      run_cons_eq_ok_iff.mpr ⟨_, rfl, run_cons_eq_ok_iff.mpr ⟨held, rfl,
        run_cons_eq_ok_iff.mpr ⟨_, hexecute, rfl⟩⟩⟩⟩⟩
  exact ⟨_, hrun, workers_realised (fun _ ↦ none) (by decide) hrun⟩

end TradeServers.LogTimeServer.Threads
