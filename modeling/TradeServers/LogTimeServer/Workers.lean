import TradeServers.LogTimeServer.Isolation

/-!
# The worker threads of the log time server

`onStringMessage` queues every message as a task, and the threads of the pool take tasks from the
front of the queue and deal with them concurrently. Nothing ties the tasks of one connection
together: two of them may be held by two workers, and the later one may reach the database first
(`later_upload_first`). As long as no worker takes a task of a connection while another still holds
one, the tasks of that connection take effect in the order of their arrival
(`effects_in_arrival_order`).
-/

set_option autoImplicit false
set_option relaxedAutoImplicit false

namespace TradeServers.LogTimeServer.Workers

open Execution SqlLiteral

/-! ### The thread pool -/

/-- A message bound to the connection it came from. -/
structure Task where
  connection : ℕ
  msg : Bytes
deriving DecidableEq

/-- The thread pool and the database: `queue` is `queue_`, `taken` are the tasks that workers hold
and have not dealt with yet. The tasks that arrived so far and those that were dealt with, in the
order of their effects, are kept with it. -/
structure State (σ : Type) where
  arrived : List Task
  queue : List Task
  taken : List (ℕ × Task)
  executed : List (Task × Answers)
  db : σ

/-- Nothing has arrived yet. -/
def start {σ : Type} (db : σ) : State σ := ⟨[], [], [], [], db⟩

/-- `ThreadPool::run` of a pool with threads: the task is pushed. -/
def State.run {σ : Type} (state : State σ) (task : Task) : State σ :=
  { state with arrived := state.arrived ++ [task], queue := state.queue ++ [task] }

/-- One of the workers of the pool, and one that holds no task. -/
def State.Idle {σ : Type} (workers : ℕ) (state : State σ) (worker : ℕ) : Prop :=
  worker < workers ∧ ∀ entry ∈ state.taken, entry.1 ≠ worker

instance {σ : Type} (workers : ℕ) (state : State σ) (worker : ℕ) :
    Decidable (state.Idle workers worker) :=
  inferInstanceAs (Decidable (_ ∧ _))

/-- `ThreadPool::take` by one of the workers. A worker that is busy, or finds the queue empty,
takes nothing. -/
def State.take {σ : Type} (workers : ℕ) (state : State σ) (worker : ℕ) : State σ :=
  if state.Idle workers worker then
    match state.queue with
    | [] => state
    | front :: rest => { state with queue := rest, taken := state.taken ++ [(worker, front)] }
  else state

/-- What happens in the pool: a message arrives, a worker takes a task, or a worker deals with the
task it holds, which is one access to the database. -/
inductive Event
  | arrive (task : Task)
  | take (worker : ℕ)
  | execute (worker : ℕ) (answers : Answers)

section Database

variable {σ : Type} (server : MysqlServer σ) (workers : ℕ)

/-- A worker runs `dealMessage` on the task it holds, if it holds one. -/
def execute (state : State σ) (worker : ℕ) (answers : Answers) : Except Fault (State σ) :=
  match state.taken.find? fun entry ↦ entry.1 = worker with
  | none => .ok state
  | some entry =>
    match dealMessage server answers state.db entry.2.msg with
    | .error fault => .error fault
    | .ok (next, _) =>
      .ok { state with
        taken := state.taken.eraseP fun entry ↦ entry.1 = worker
        executed := state.executed ++ [(entry.2, answers)]
        db := next }

/-- A worker gets through with its task, unless that is a download without a connection. -/
theorem execute_ok {state : State σ} {worker : ℕ} {answers : Answers}
    (hserved : ∀ task, (worker, task) ∈ state.taken → downloadedBy task.msg ≠ none →
      answers.connected = true) :
    ∃ next, execute server state worker answers = .ok next := by
  unfold execute
  split
  · exact ⟨_, rfl⟩
  · rename_i entry hfind
    obtain ⟨holder, task⟩ := entry
    obtain rfl : holder = worker := by simpa using List.find?_some hfind
    obtain ⟨outcome, hdeal⟩ := dealMessage_ok server answers state.db
      (hserved task (List.mem_of_find?_eq_some hfind))
    rw [hdeal]
    exact ⟨_, rfl⟩

/-- The effect of an event on a pool with the given number of workers. -/
def step (state : State σ) : Event → Except Fault (State σ)
  | .arrive task => .ok (state.run task)
  | .take worker => .ok (state.take workers worker)
  | .execute worker answers => execute server state worker answers

/-- Taking a task moves the front of the queue, or does nothing. -/
theorem take_cases (state : State σ) (worker : ℕ) :
    state.take workers worker = state ∨
      state.Idle workers worker ∧ ∃ front rest, state.queue = front :: rest ∧
        state.take workers worker =
          { state with queue := rest, taken := state.taken ++ [(worker, front)] } := by
  unfold State.take
  split_ifs with hidle
  · split
    · exact .inl rfl
    · rename_i front rest hqueue
      exact .inr ⟨hidle, front, rest, hqueue, rfl⟩
  · exact .inl rfl

/-- Dealing with a task takes one task from those that are held to those that are done, or does
nothing. -/
theorem execute_cases {state next : State σ} {worker : ℕ} {answers : Answers}
    (hexecute : execute server state worker answers = .ok next) :
    next = state ∨
      ∃ before task after db action, state.taken = before ++ (worker, task) :: after ∧
        dealMessage server answers state.db task.msg = .ok (db, action) ∧
        next = { state with
          taken := before ++ after,
          executed := state.executed ++ [(task, answers)],
          db := db } := by
  unfold execute at hexecute
  split at hexecute
  · exact .inl (Except.ok.inj hexecute).symm
  · rename_i entry hfind
    split at hexecute
    · cases hexecute
    · rename_i db action hdeal
      obtain ⟨hworker, before, after, htaken, hbefore⟩ :=
        List.find?_eq_some_iff_append.mp hfind
      obtain ⟨holder, task⟩ := entry
      obtain rfl : holder = worker := by simpa using hworker
      refine .inr ⟨before, task, after, db, action, htaken, hdeal, ?_⟩
      have herase : state.taken.eraseP (fun entry ↦ entry.1 = holder) = before ++ after := by
        rw [htaken, List.eraseP_append_right _ (by simpa using hbefore)]
        simp
      rw [← Except.ok.inj hexecute, herase]

/-! ### The order of effects -/

/-- The tasks that came from a connection. -/
def sentOn (connection : ℕ) (tasks : List Task) : List Task :=
  tasks.filter fun task ↦ task.connection = connection

@[simp] theorem sentOn_nil (connection : ℕ) : sentOn connection [] = [] := rfl

@[simp] theorem sentOn_append (connection : ℕ) (first second : List Task) :
    sentOn connection (first ++ second) = sentOn connection first ++ sentOn connection second :=
  List.filter_append _ _

theorem sentOn_cons_self {connection : ℕ} {task : Task} (hself : task.connection = connection)
    (tasks : List Task) : sentOn connection (task :: tasks) = task :: sentOn connection tasks := by
  simp [sentOn, hself]

theorem sentOn_cons_other {connection : ℕ} {task : Task} (hother : task.connection ≠ connection)
    (tasks : List Task) : sentOn connection (task :: tasks) = sentOn connection tasks := by
  simp [sentOn, hother]

/-- No worker takes a task of the connection while one holds such a task. -/
def Serial (connection : ℕ) (state : State σ) : Event → Prop
  | .take worker => state.Idle workers worker →
      ∀ front ∈ state.queue.head?, front.connection = connection →
        sentOn connection (state.taken.map Prod.snd) = []
  | _ => True

/-- The tasks of the connection were dealt with in the order of their arrival: what arrived is what
was dealt with, then what a worker holds, at most one, then what is queued. -/
structure InOrder (connection : ℕ) (state : State σ) : Prop where
  arrivals : sentOn connection state.arrived =
    sentOn connection (state.executed.map Prod.fst) ++
      (sentOn connection (state.taken.map Prod.snd) ++ sentOn connection state.queue)
  single : (sentOn connection (state.taken.map Prod.snd)).length ≤ 1

theorem start_inOrder (connection : ℕ) (db : σ) : InOrder connection (start db) :=
  ⟨rfl, Nat.zero_le 1⟩

theorem run_inOrder {connection : ℕ} {state : State σ} (horder : InOrder connection state)
    (task : Task) : InOrder connection (state.run task) := by
  obtain ⟨harrivals, hsingle⟩ := horder
  refine ⟨?_, hsingle⟩
  simp only [State.run, sentOn_append, harrivals, List.append_assoc]

theorem take_inOrder {connection : ℕ} {state : State σ} (horder : InOrder connection state)
    (worker : ℕ) (hserial : Serial workers connection state (.take worker)) :
    InOrder connection (state.take workers worker) := by
  rcases take_cases workers state worker with hsame | ⟨hidle, front, rest, hqueue, htake⟩
  · rw [hsame]
    exact horder
  · obtain ⟨harrivals, hsingle⟩ := horder
    rw [hqueue] at harrivals
    rw [htake]
    by_cases hself : front.connection = connection
    · have hfree := hserial hidle front (by rw [hqueue]; rfl) hself
      rw [hfree, sentOn_cons_self hself] at harrivals
      constructor
      · simp [harrivals, hfree, sentOn_cons_self hself]
      · simp [hfree, sentOn_cons_self hself]
    · rw [sentOn_cons_other hself] at harrivals
      constructor
      · simp [harrivals, sentOn_cons_other hself]
      · simpa [sentOn_cons_other hself] using hsingle

theorem execute_inOrder {connection : ℕ} {state next : State σ} {worker : ℕ} {answers : Answers}
    (horder : InOrder connection state)
    (hexecute : execute server state worker answers = .ok next) : InOrder connection next := by
  rcases execute_cases server hexecute with rfl | ⟨before, task, after, db, action, htaken, -, rfl⟩
  · exact horder
  · obtain ⟨harrivals, hsingle⟩ := horder
    rw [htaken, List.map_append, List.map_cons, sentOn_append] at harrivals hsingle
    by_cases hself : task.connection = connection
    · rw [sentOn_cons_self hself] at harrivals hsingle
      simp only [List.length_append, List.length_cons] at hsingle
      have hbefore : sentOn connection (before.map Prod.snd) = [] :=
        List.length_eq_zero_iff.mp (by omega)
      have hafter : sentOn connection (after.map Prod.snd) = [] :=
        List.length_eq_zero_iff.mp (by omega)
      rw [hbefore, hafter] at harrivals
      constructor
      · simp [harrivals, hbefore, hafter, sentOn_cons_self hself]
      · simp [hbefore, hafter]
    · rw [sentOn_cons_other hself] at harrivals hsingle
      constructor
      · simp [harrivals, sentOn_cons_other hself]
      · simpa using hsingle

theorem step_inOrder {connection : ℕ} {state next : State σ} {event : Event}
    (horder : InOrder connection state) (hserial : Serial workers connection state event)
    (hstep : step server workers state event = .ok next) : InOrder connection next := by
  cases event with
  | arrive task =>
    cases hstep
    exact run_inOrder horder task
  | take worker =>
    cases hstep
    exact take_inOrder workers horder worker hserial
  | execute worker answers => exact execute_inOrder server horder hstep

/-- A pool with one worker takes tasks serially, whatever happens. -/
theorem single_worker_serial (connection : ℕ) (db : σ) (events : List Event) :
    Guarded (step server 1) (Serial 1 connection) (start db) events := by
  have hpreserved : ∀ (state : State σ) event next, (∀ entry ∈ state.taken, entry.1 < 1) →
      step server 1 state event = .ok next → ∀ entry ∈ next.taken, entry.1 < 1 := by
    intro state event next hbound hstep
    cases event with
    | arrive task =>
      cases hstep
      exact hbound
    | take worker =>
      cases hstep
      rcases take_cases 1 state worker with hsame | ⟨hidle, front, rest, -, htake⟩
      · rw [hsame]
        exact hbound
      · rw [htake]
        intro entry hentry
        rcases List.mem_append.mp hentry with hold | hnew
        · exact hbound entry hold
        · rw [List.mem_singleton.mp hnew]
          exact hidle.1
    | execute worker answers =>
      rcases execute_cases server hstep with
        rfl | ⟨before, task, after, db, action, htaken, -, rfl⟩
      · exact hbound
      · intro entry hentry
        apply hbound
        rw [htaken]
        exact (List.mem_append.mp hentry).elim (List.mem_append_left _)
          fun hafter ↦ List.mem_append_right _ (List.mem_cons_of_mem _ hafter)
  refine guarded_of_invariant hpreserved (fun state event hbound ↦ ?_) events
    (fun entry hentry ↦ nomatch hentry)
  cases event with
  | take worker =>
    intro hidle front _ _
    have hnone : state.taken = [] := by
      apply List.eq_nil_iff_forall_not_mem.mpr
      intro entry hentry
      have hholder := hbound entry hentry
      have hworker := hidle.1
      exact hidle.2 entry hentry (by omega)
    rw [hnone]
    rfl
  | arrive task => trivial
  | execute worker answers => trivial

/-! ### The content of a row -/

/-- What a task that was dealt with stored in a row, if it stored something there. -/
def storedBy (row : DocumentKey) (entry : Task × Answers) : Option Bytes :=
  match uploadedBy entry.1.msg with
  | some (document, body) =>
    if entry.2.connected ∧ entry.2.accepted then
      if row = document then some body else none
    else none
  | none => none

/-- What the last of the tasks that stored something in a row left there. -/
def lastStored (row : DocumentKey) (entries : List (Task × Answers)) (before : Option Bytes) :
    Option Bytes :=
  entries.foldl (fun content entry ↦ (storedBy row entry).or content) before

/-- The tasks of a connection that were dealt with. -/
def doneOn (connection : ℕ) (entries : List (Task × Answers)) : List (Task × Answers) :=
  entries.filter fun entry ↦ entry.1.connection = connection

/-- All header values are text safe, and only the given connection uploads to the row. -/
def Exclusive (connection : ℕ) (row : DocumentKey) (entries : List (Task × Answers)) : Prop :=
  ∀ entry ∈ entries, SafeMessage entry.1.msg ∧
    ∀ body, uploadedBy entry.1.msg = some (row, body) → entry.1.connection = connection

theorem content_of_storedBy {row : DocumentKey} {task : Task} {answers : Answers} {db next : σ}
    {action : Action} (hsafe : SafeMessage task.msg)
    (hdeal : dealMessage server answers db task.msg = .ok (next, action)) :
    server.content next row = (storedBy row (task, answers)).or (server.content db row) := by
  rw [content_dealMessage server answers db hsafe hdeal, storedBy]
  cases uploadedBy task.msg with
  | none => rfl
  | some upload =>
    obtain ⟨document, body⟩ := upload
    dsimp only
    split_ifs with hboth hrow
    · rw [hrow, Function.update_self]
      rfl
    · rw [Function.update_of_ne hrow]
      rfl
    · rfl

theorem lastStored_append (row : DocumentKey) (entries : List (Task × Answers))
    (entry : Task × Answers) (before : Option Bytes) :
    lastStored row (entries ++ [entry]) before =
      (storedBy row entry).or (lastStored row entries before) := by
  rw [lastStored, List.foldl_append]
  rfl

/-- A task of another connection stores nothing in a row that is exclusive to this one. -/
theorem storedBy_eq_none {connection : ℕ} {row : DocumentKey} {entry : Task × Answers}
    (hexclusive : ∀ body, uploadedBy entry.1.msg = some (row, body) →
      entry.1.connection = connection) (hother : entry.1.connection ≠ connection) :
    storedBy row entry = none := by
  unfold storedBy
  split
  · rename_i document body huploaded
    split_ifs with hboth hrow
    · exact absurd (hexclusive body (hrow ▸ huploaded)) hother
    · rfl
    · rfl
  · rfl

/-- A row that is exclusive to a connection holds what the tasks of the connection left there. -/
def RowOf (connection : ℕ) (row : DocumentKey) (before : Option Bytes) (state : State σ) : Prop :=
  Exclusive connection row state.executed →
    server.content state.db row = lastStored row (doneOn connection state.executed) before

theorem step_rowOf {connection : ℕ} {row : DocumentKey} {before : Option Bytes}
    {state next : State σ} {event : Event} (hrow : RowOf server connection row before state)
    (hstep : step server workers state event = .ok next) :
    RowOf server connection row before next := by
  cases event with
  | arrive task =>
    cases hstep
    exact hrow
  | take worker =>
    cases hstep
    rcases take_cases workers state worker with hsame | ⟨-, front, rest, -, htake⟩
    · rw [hsame]
      exact hrow
    · rw [htake]
      exact hrow
  | execute worker answers =>
    rcases execute_cases server hstep with
      rfl | ⟨first, task, after, db, action, -, hdeal, rfl⟩
    · exact hrow
    · intro hexclusive
      have hearlier := hrow fun entry hentry ↦ hexclusive entry (List.mem_append_left _ hentry)
      obtain ⟨hsafe, hself⟩ := hexclusive (task, answers) (by simp)
      rw [content_of_storedBy server hsafe hdeal, hearlier]
      by_cases hconnection : task.connection = connection
      · have hdone : doneOn connection (state.executed ++ [(task, answers)]) =
            doneOn connection state.executed ++ [(task, answers)] := by
          simp [doneOn, hconnection]
        rw [hdone, lastStored_append]
      · have hdone : doneOn connection (state.executed ++ [(task, answers)]) =
            doneOn connection state.executed := by
          simp [doneOn, hconnection]
        rw [hdone, storedBy_eq_none hself hconnection]
        rfl

/-- When no worker takes a task of a connection while another holds one, the tasks of the
connection take effect in the order of their arrival: those dealt with come first, then the one
that is held, then the queued ones. A row that no other connection uploads to holds what the last
upload of the connection left there, which is what its next task finds. -/
theorem effects_in_arrival_order (connection : ℕ) (db : σ) (events : List Event) (final : State σ)
    (hserial : Guarded (step server workers) (Serial workers connection) (start db) events)
    (hrun : run (step server workers) (start db) events = .ok final) :
    sentOn connection final.arrived =
        sentOn connection (final.executed.map Prod.fst) ++
          (sentOn connection (final.taken.map Prod.snd) ++ sentOn connection final.queue) ∧
      (sentOn connection (final.taken.map Prod.snd)).length ≤ 1 ∧
      ∀ row, Exclusive connection row final.executed →
        server.content final.db row =
          lastStored row (doneOn connection final.executed) (server.content db row) := by
  have horder : InOrder connection final :=
    hserial.run_invariant (fun _ _ _ ↦ step_inOrder server workers)
      (start_inOrder connection db) hrun
  refine ⟨horder.arrivals, horder.single, fun row ↦ ?_⟩
  have hinitial : RowOf server connection row (server.content db row) (start db) := fun _ ↦ rfl
  exact run_invariant (fun _ _ _ ↦ step_rowOf server workers) hinitial hrun

/-- A worker that holds an upload stores it, given a connection and an accepted statement. -/
theorem execute_upload (state : State σ) (worker connection : ℕ) {document : DocumentKey}
    (body : Bytes) (hcarried : document.Carried)
    (hfind : state.taken.find? (fun entry ↦ entry.1 = worker) =
      some (worker, ⟨connection, payload (uploadOf document body)⟩)) :
    ∃ db, execute server state worker ⟨true, true⟩ =
        .ok { state with
          taken := state.taken.eraseP fun entry ↦ entry.1 = worker
          executed := state.executed ++
            [(⟨connection, payload (uploadOf document body)⟩, ⟨true, true⟩)]
          db := db } ∧
      server.content db =
        Function.update (server.content state.db) document.stored (some body) := by
  obtain ⟨db, action, hdeal, hcontent⟩ := dealMessage_upload server ⟨true, true⟩ state.db
    (uploadOf_transfer hcarried body) (uploadOf_isUpload document body)
  refine ⟨db, ?_, hcontent.trans (if_pos ⟨rfl, rfl⟩)⟩
  unfold execute
  rw [hfind]
  dsimp only
  rw [hdeal]

end Database

/-- An upload for the user `"ann"` on the first connection. -/
def annualUpload (body : Bytes) : Task :=
  ⟨1, payload (uploadOf (annual (ascii "2024")) body)⟩

/-- With eight workers, one upload of a connection is stored before another one arrives. -/
theorem effects_of_queued_upload :
    ∃ final, run (step .ofTable 8) (start fun _ ↦ none)
        [.arrive (annualUpload [1]), .take 0, .execute 0 ⟨true, true⟩,
          .arrive (annualUpload [2])] = .ok final ∧
      sentOn 1 final.arrived =
        sentOn 1 (final.executed.map Prod.fst) ++
          (sentOn 1 (final.taken.map Prod.snd) ++ sentOn 1 final.queue) ∧
      (sentOn 1 (final.taken.map Prod.snd)).length ≤ 1 ∧
      ∀ row, Exclusive 1 row final.executed →
        MysqlServer.ofTable.content final.db row =
          lastStored row (doneOn 1 final.executed) none := by
  let held : State (DocumentKey → Option Bytes) :=
    ⟨[annualUpload [1]], [], [(0, annualUpload [1])], [], fun _ ↦ none⟩
  obtain ⟨db, hexecute, -⟩ := execute_upload .ofTable held 0 1 [1] annual_carried_2024 rfl
  have hserial : Guarded (step .ofTable 8) (Serial 8 1) (start fun _ ↦ none)
      [.arrive (annualUpload [1]), .take 0, .execute 0 ⟨true, true⟩,
        .arrive (annualUpload [2])] :=
    ⟨trivial, fun _ harrive ↦ ⟨by cases harrive; exact fun _ _ _ _ ↦ rfl,
      fun _ _ ↦ ⟨trivial, fun _ _ ↦ ⟨trivial, fun _ _ ↦ trivial⟩⟩⟩⟩
  have hrun : run (step .ofTable 8) (start fun _ ↦ none)
      [.arrive (annualUpload [1]), .take 0, .execute 0 ⟨true, true⟩,
        .arrive (annualUpload [2])] = .ok _ :=
    run_cons_eq_ok_iff.mpr ⟨_, rfl, run_cons_eq_ok_iff.mpr ⟨held, rfl,
      run_cons_eq_ok_iff.mpr ⟨_, hexecute, run_cons_eq_ok_iff.mpr ⟨_, rfl, rfl⟩⟩⟩⟩
  exact ⟨_, hrun, effects_in_arrival_order .ofTable 8 1 (fun _ ↦ none) _ _ hserial hrun⟩

/-- Two workers take two uploads of one connection for the same document, and the later one is
stored first: the document that was uploaded first is left in the table. -/
theorem later_upload_first :
    ∃ final, run (step .ofTable 8) (start fun _ ↦ none)
        [.arrive (annualUpload [1]), .arrive (annualUpload [2]), .take 0, .take 1,
          .execute 1 ⟨true, true⟩, .execute 0 ⟨true, true⟩] = .ok final ∧
      final.arrived = [annualUpload [1], annualUpload [2]] ∧
      final.executed.map Prod.fst = [annualUpload [2], annualUpload [1]] ∧
      MysqlServer.ofTable.content final.db (annual (ascii "2024")).stored = some [1] := by
  let held : State (DocumentKey → Option Bytes) :=
    ⟨[annualUpload [1], annualUpload [2]], [], [(0, annualUpload [1]), (1, annualUpload [2])], [],
      fun _ ↦ none⟩
  obtain ⟨db1, hexecute1, -⟩ := execute_upload .ofTable held 1 1 [2] annual_carried_2024 rfl
  let overtaken : State (DocumentKey → Option Bytes) :=
    ⟨held.arrived, [], [(0, annualUpload [1])], [(annualUpload [2], ⟨true, true⟩)], db1⟩
  obtain ⟨db2, hexecute2, hcontent⟩ :=
    execute_upload .ofTable overtaken 0 1 [1] annual_carried_2024 rfl
  have hrun : run (step .ofTable 8) (start fun _ ↦ none)
      [.arrive (annualUpload [1]), .arrive (annualUpload [2]), .take 0, .take 1,
        .execute 1 ⟨true, true⟩, .execute 0 ⟨true, true⟩] = .ok _ :=
    run_cons_eq_ok_iff.mpr ⟨_, rfl, run_cons_eq_ok_iff.mpr ⟨_, rfl,
      run_cons_eq_ok_iff.mpr ⟨_, rfl, run_cons_eq_ok_iff.mpr ⟨held, rfl,
        run_cons_eq_ok_iff.mpr ⟨overtaken, hexecute1, run_cons_eq_ok_iff.mpr
          ⟨_, hexecute2, rfl⟩⟩⟩⟩⟩⟩
  refine ⟨_, hrun, rfl, rfl, ?_⟩
  rw [hcontent, Function.update_self]

end TradeServers.LogTimeServer.Workers
