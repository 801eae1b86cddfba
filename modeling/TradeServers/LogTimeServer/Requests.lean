import TradeServers.Library.Linearization
import TradeServers.LogTimeServer.Replies
import TradeServers.LogTimeServer.Workers
import TradeServers.ThreadPool.Order

/-!
# Requests of several clients at the same time

A thread of the pool that deals with a message first gets a connection to the database, then
executes one statement, and sends its reply at the end, while other threads are at other places of
`dealMessage`. `Workers` lets all of this happen at once. Here the threads take their steps one by
one, and the history lists when the messages arrive and when they are answered.

- `linearizable`: every history is explained by dealing with the messages one at a time, in an order
  in which a message that was answered before another one arrived comes first.
- `answered_when_quiet`: when no thread can go on, every message was answered, and none twice.
- `read_after_write`: a client that has the reply to its upload and downloads the document then gets
  the uploaded text, unless other uploads of the document interfere.
-/

set_option autoImplicit false
set_option relaxedAutoImplicit false

namespace TradeServers.LogTimeServer.Requests

open Execution SqlLiteral Workers Linearization

/-! ### The parts of `dealMessage` -/

/-- `dealMessage` up to its statement. Without a statement it is decided what to do. -/
def prepare (connected : Bool) (msg : Bytes) : Except Fault (Option Action) :=
  if headerLen ≤ msg.length then
    let request := parseHeader msg
    if request.cmd = ascii "RQUPJ" ∧ request.format = ascii "GZIP" then
      if connected then .ok none else .ok (some .silent)
    else if request.cmd = ascii "RQDPJ" then
      if connected then .ok none else .error .nullConnection
    else if request.cmd ≠ ascii "HBET" then .ok (some .disconnect)
    else .ok (some .silent)
  else .ok (some .silent)

variable {σ : Type} {n : ℕ}

/-- The statement of `dealMessage`, and what is to be done with its result. -/
def query (server : MysqlServer σ) (accepted : Bool) (db : σ) (msg : Bytes) : σ × Action :=
  let request := parseHeader msg
  if request.cmd = ascii "RQUPJ" ∧ request.format = ascii "GZIP" then
    let inserted := mysqlInsert server ⟨true, accepted⟩ db request.document request.body
    (inserted.1, .reply ⟨ascii "RSUPJ", ascii "TXT", request.userName, request.key, request.side,
      inserted.2⟩)
  else
    let queried := mysqlQuery server ⟨true, accepted⟩ db request.document
    (queried.1, downloadReply request.document queried.2)

/-- The parts make up `dealMessage`. -/
theorem dealMessage_eq (server : MysqlServer σ) (connected accepted : Bool) (db : σ) (msg : Bytes) :
    dealMessage server ⟨connected, accepted⟩ db msg =
      match prepare connected msg with
      | .error fault => .error fault
      | .ok (some action) => .ok (db, action)
      | .ok none => .ok (query server accepted db msg) := by
  unfold dealMessage prepare query
  dsimp only
  by_cases hlength : headerLen ≤ msg.length
  · rw [if_pos hlength, if_pos hlength]
    by_cases hupload : (parseHeader msg).cmd = ascii "RQUPJ" ∧
        (parseHeader msg).format = ascii "GZIP"
    · rw [if_pos hupload, if_pos hupload, if_pos hupload]
      cases connected <;> rfl
    · rw [if_neg hupload, if_neg hupload, if_neg hupload]
      by_cases hdownload : (parseHeader msg).cmd = ascii "RQDPJ"
      · rw [if_pos hdownload, if_pos hdownload]
        cases connected <;> rfl
      · rw [if_neg hdownload, if_neg hdownload]
        split_ifs <;> rfl
  · rw [if_neg hlength, if_neg hlength]

/-! ### The server -/

/-- How far a thread is in `dealMessage`: at the beginning, with a connection for its statement,
behind the statement, or at the end. A thread that is in no task is at the beginning. -/
inductive Stage
  | begun
  | connected
  | decided (action : Action)
  | ended

/-- The threads and the database. Every task carries the number of its arrival, which names it in
the history and in the order of the effects. -/
structure State (n : ℕ) (σ : Type) where
  pool : ThreadPool.State n (ℕ × Task)
  stages : Fin n → Stage
  db : σ
  history : List (Event ℕ Task Action)
  order : List (Effect ℕ Task Action)

def start (n : ℕ) (db : σ) : State n σ :=
  ⟨ThreadPool.start n (ℕ × Task), fun _ ↦ .begun, db, [], []⟩

/-- What happens in the server: a message arrives, a thread takes its next step inside or outside of
`dealMessage`, or is woken for no reason, or the pool is stopped. -/
inductive Move (n : ℕ)
  | onStringMessage (task : Task) (chosen : ℕ)
  | prepare (thread : Fin n) (connected : Bool)
  | query (thread : Fin n) (accepted : Bool)
  | send (thread : Fin n)
  | advance (thread : Fin n)
  | wake (thread : Fin n)
  | stop

namespace State

/-- `comServer::onStringMessage`. A stopped pool drops the message. -/
def onStringMessage (state : State n σ) (task : Task) (chosen : ℕ) : State n σ :=
  { state with
    pool := state.pool.run (state.pool.accepted.length, task) chosen
    history := if state.pool.running then
        state.history ++ [.invoke state.pool.accepted.length task]
      else state.history }

/-- The message of a thread has its effect, and the thread goes on. -/
def effect (state : State n σ) (thread : Fin n) (entry : ℕ × Task) (outcome : σ × Action) :
    State n σ :=
  { state with
    db := outcome.1
    order := state.order ++ [⟨entry.1, entry.2, outcome.2⟩]
    stages := Function.update state.stages thread (.decided outcome.2) }

/-- A thread at the beginning of `dealMessage` comes to its statement, or to its end. -/
def prepare (state : State n σ) (thread : Fin n) (connected : Bool) : Except Fault (State n σ) :=
  match (state.pool.phases thread).task?, state.stages thread with
  | some entry, .begun =>
    match Requests.prepare connected entry.2.msg with
    | .error fault => .error fault
    | .ok (some action) => .ok (state.effect thread entry (state.db, action))
    | .ok none => .ok { state with stages := Function.update state.stages thread .connected }
  | _, _ => .ok state

/-- A thread with a connection executes its statement. -/
def query (server : MysqlServer σ) (state : State n σ) (thread : Fin n) (accepted : Bool) :
    State n σ :=
  match (state.pool.phases thread).task?, state.stages thread with
  | some entry, .connected =>
    state.effect thread entry (Requests.query server accepted state.db entry.2.msg)
  | _, _ => state

/-- A thread sends its reply, or does what else it has decided. -/
def send (state : State n σ) (thread : Fin n) : State n σ :=
  match (state.pool.phases thread).task?, state.stages thread with
  | some entry, .decided action =>
    { state with
      history := state.history ++ [.answer entry.1 action]
      stages := Function.update state.stages thread .ended }
  | _, _ => state

/-- A step of a thread in `runInThread`, which it takes outside of `dealMessage`. -/
def advance (state : State n σ) (thread : Fin n) : State n σ :=
  match (state.pool.phases thread).task?, state.stages thread with
  | none, _ => { state with pool := state.pool.advance thread }
  | some _, .ended =>
    { state with
      pool := state.pool.advance thread
      stages := Function.update state.stages thread .begun }
  | some _, _ => state

end State

def step (server : MysqlServer σ) (state : State n σ) : Move n → Except Fault (State n σ)
  | .onStringMessage task chosen => .ok (state.onStringMessage task chosen)
  | .prepare thread connected => state.prepare thread connected
  | .query thread accepted => .ok (state.query server thread accepted)
  | .send thread => .ok (state.send thread)
  | .advance thread => .ok (state.advance thread)
  | .wake thread => .ok { state with pool := state.pool.wake thread }
  | .stop => .ok { state with pool := state.pool.stop }

/-- What dealing with a message on its own does. -/
def Deals (server : MysqlServer σ) (db : σ) (task : Task) (action : Action) (next : σ) : Prop :=
  ∃ answers, dealMessage server answers db task.msg = .ok (next, action)

/-! ### The invariant -/

/-- What a thread has done of its task. -/
def Fits (history : List (Event ℕ Task Action)) (order : List (Effect ℕ Task Action)) :
    Option (ℕ × Task) → Stage → Prop
  | none, stage => stage = .begun
  | some entry, .begun => entry.1 ∉ order.map Effect.id
  | some entry, .connected => entry.1 ∉ order.map Effect.id ∧
      ∃ connected, prepare connected entry.2.msg = .ok none
  | some entry, .decided action => ⟨entry.1, entry.2, action⟩ ∈ order ∧
      ∀ result, .answer entry.1 result ∉ history
  | some entry, .ended => ∃ result, .answer entry.1 result ∈ history

/-- The history and the order of the effects are those of an object whose operations take effect at
one moment; the tasks of the pool are the messages that arrived, with their numbers; a queued one
has had no effect, one that is being dealt with what its stage says, and one that was executed is
answered. -/
structure Sound (server : MysqlServer σ) (db : σ) (state : State n σ) : Prop where
  recorded : Recorded (Deals server) db state.history state.order state.db
  pool : ThreadPool.Sound state.pool
  numbered : state.pool.accepted.map Prod.fst = List.range state.pool.accepted.length
  invoked : ∀ id task, .invoke id task ∈ state.history ↔ (id, task) ∈ state.pool.accepted
  queued : ∀ entry ∈ state.pool.queue, entry.1 ∉ state.order.map Effect.id
  fits : ∀ thread, Fits state.history state.order (state.pool.phases thread).task?
    (state.stages thread)
  done : ∀ entry ∈ state.pool.executed, ∃ result, .answer entry.1 result ∈ state.history

section Fits

variable {history : List (Event ℕ Task Action)} {order : List (Effect ℕ Task Action)}
  {task : Option (ℕ × Task)} {stage : Stage}

theorem Fits.invoke (hfits : Fits history order task stage) (id : ℕ) (arrived : Task) :
    Fits (history ++ [.invoke id arrived]) order task stage := by
  cases task with
  | none => exact hfits
  | some entry =>
    cases stage with
    | begun | connected => exact hfits
    | decided action =>
      refine ⟨hfits.1, fun result hanswer ↦ ?_⟩
      rw [List.mem_append, List.mem_singleton] at hanswer
      exact hfits.2 result (hanswer.resolve_right (by simp))
    | ended =>
      obtain ⟨result, hanswer⟩ := hfits
      exact ⟨result, List.mem_append_left _ hanswer⟩

theorem Fits.effect (hfits : Fits history order task stage) {effect : Effect ℕ Task Action}
    (hother : ∀ entry, task = some entry → entry.1 ≠ effect.id) :
    Fits history (order ++ [effect]) task stage := by
  cases task with
  | none => exact hfits
  | some entry =>
    have hnew : entry.1 ∉ order.map Effect.id → entry.1 ∉ (order ++ [effect]).map Effect.id := by
      intro hold
      simpa [hother entry rfl] using hold
    cases stage with
    | begun => exact hnew hfits
    | connected => exact ⟨hnew hfits.1, hfits.2⟩
    | decided action => exact ⟨List.mem_append_left _ hfits.1, hfits.2⟩
    | ended => exact hfits

theorem Fits.answer (hfits : Fits history order task stage) {id : ℕ} {action : Action}
    (hother : ∀ entry, task = some entry → entry.1 ≠ id) :
    Fits (history ++ [.answer id action]) order task stage := by
  cases task with
  | none => exact hfits
  | some entry =>
    cases stage with
    | begun | connected => exact hfits
    | decided other =>
      refine ⟨hfits.1, fun result hanswer ↦ ?_⟩
      rw [List.mem_append, List.mem_singleton] at hanswer
      rcases hanswer with hanswer | hanswer
      · exact hfits.2 result hanswer
      · injection hanswer with hid
        exact hother entry rfl hid
    | ended =>
      obtain ⟨result, hanswer⟩ := hfits
      exact ⟨result, List.mem_append_left _ hanswer⟩

end Fits

section Steps

variable {server : MysqlServer σ} {db : σ} {state next : State n σ} {thread : Fin n}
  {entry : ℕ × Task}

theorem start_sound (n : ℕ) (server : MysqlServer σ) (db : σ) :
    Sound server db (start n db) where
  recorded := .nil
  pool := ThreadPool.start_sound n _
  numbered := rfl
  invoked _ _ := by simp [start, ThreadPool.start]
  queued _ hentry := by cases hentry
  fits _ := rfl
  done _ hentry := by cases hentry

theorem Sound.eq_of_number (hsound : Sound server db state) {first second : ℕ × Task}
    (hfirst : first ∈ state.pool.accepted) (hsecond : second ∈ state.pool.accepted)
    (hnumber : first.1 = second.1) : first = second := by
  have hnodup : (state.pool.accepted.map Prod.fst).Nodup := by
    rw [hsound.numbered]
    exact List.nodup_range
  exact List.inj_on_of_nodup_map hnodup hfirst hsecond hnumber

theorem Sound.nodup (hsound : Sound server db state) : state.pool.accepted.Nodup := by
  refine List.Nodup.of_map Prod.fst ?_
  rw [hsound.numbered]
  exact List.nodup_range

theorem Sound.started (hsound : Sound server db state)
    (htask : (state.pool.phases thread).task? = some entry) : entry ∈ state.pool.started :=
  hsound.pool.started_of_performing (ThreadPool.task?_eq_some_iff.mp htask)

theorem Sound.accepted (hsound : Sound server db state)
    (htask : (state.pool.phases thread).task? = some entry) : entry ∈ state.pool.accepted := by
  rw [hsound.pool.order]
  exact List.mem_append_left _ (hsound.started htask)

/-- A queued message is not the one that a thread deals with. -/
theorem Sound.number_ne_queued (hsound : Sound server db state)
    (htask : (state.pool.phases thread).task? = some entry) {other : ℕ × Task}
    (hother : other ∈ state.pool.queue) : other.1 ≠ entry.1 := by
  intro hnumber
  have hnodup := hsound.nodup
  have haccepted : other ∈ state.pool.accepted := by
    rw [hsound.pool.order]
    exact List.mem_append_right _ hother
  obtain rfl := hsound.eq_of_number haccepted (hsound.accepted htask) hnumber
  rw [hsound.pool.order] at hnodup
  exact List.disjoint_of_nodup_append hnodup (hsound.started htask) hother

/-- Two threads deal with different messages. -/
theorem Sound.number_ne (hsound : Sound server db state)
    (htask : (state.pool.phases thread).task? = some entry) {other : Fin n}
    (hne : other ≠ thread) (second : ℕ × Task)
    (hother : (state.pool.phases other).task? = some second) : second.1 ≠ entry.1 := by
  intro hnumber
  obtain rfl := hsound.eq_of_number (hsound.accepted hother) (hsound.accepted htask) hnumber
  exact hne (hsound.pool.eq_of_performing hsound.nodup (ThreadPool.task?_eq_some_iff.mp htask)
    (ThreadPool.task?_eq_some_iff.mp hother))

/-- The message that a thread deals with has its effect. -/
theorem Sound.effect (hsound : Sound server db state)
    (htask : (state.pool.phases thread).task? = some entry)
    (hnew : entry.1 ∉ state.order.map Effect.id) {outcome : σ × Action}
    (hdeals : Deals server state.db entry.2 outcome.2 outcome.1) :
    Sound server db (state.effect thread entry outcome) where
  recorded := hsound.recorded.effect ⟨entry.1, entry.2, outcome.2⟩ outcome.1
    ((hsound.invoked _ _).mpr (hsound.accepted htask)) hnew hdeals
  pool := hsound.pool
  numbered := hsound.numbered
  invoked := hsound.invoked
  queued other hother := by
    have hold := hsound.queued other hother
    have hne := hsound.number_ne_queued htask hother
    simpa [State.effect, hne] using hold
  fits other := by
    show Fits _ _ (state.pool.phases other).task? (Function.update state.stages thread _ other)
    by_cases hsame : other = thread
    · rw [hsame, Function.update_self, htask]
      refine ⟨List.mem_append_right _ (List.mem_singleton_self _), fun result hanswer ↦ ?_⟩
      obtain ⟨effect, heffect, hid, -⟩ :=
        hsound.recorded.linearizes.explained entry.1 result hanswer
      exact hnew (List.mem_map.mpr ⟨effect, heffect, hid⟩)
    · rw [Function.update_of_ne hsame]
      exact (hsound.fits other).effect (hsound.number_ne htask hsame)
  done := hsound.done

theorem prepare_sound {connected : Bool} (hsound : Sound server db state)
    (hstep : state.prepare thread connected = .ok next) : Sound server db next := by
  unfold State.prepare at hstep
  have hfits := hsound.fits thread
  split at hstep
  · rename_i entry htask hstage
    rw [htask, hstage] at hfits
    split at hstep
    · cases hstep
    · rename_i action hprepare
      cases hstep
      refine hsound.effect htask hfits ⟨⟨connected, true⟩, ?_⟩
      rw [dealMessage_eq, hprepare]
    · rename_i hprepare
      cases hstep
      refine { hsound with fits := fun other ↦ ?_ }
      show Fits _ _ (state.pool.phases other).task? (Function.update state.stages thread _ other)
      by_cases hsame : other = thread
      · rw [hsame, Function.update_self, htask]
        exact ⟨hfits, connected, hprepare⟩
      · rw [Function.update_of_ne hsame]
        exact hsound.fits other
  · cases hstep
    exact hsound

theorem query_sound (hsound : Sound server db state) (thread : Fin n) (accepted : Bool) :
    Sound server db (state.query server thread accepted) := by
  have hfits := hsound.fits thread
  unfold State.query
  split
  · rename_i entry htask hstage
    rw [htask, hstage] at hfits
    obtain ⟨hnew, connected, hprepare⟩ := hfits
    refine hsound.effect htask hnew ⟨⟨connected, accepted⟩, ?_⟩
    rw [dealMessage_eq, hprepare]
  · exact hsound

theorem send_sound (hsound : Sound server db state) (thread : Fin n) :
    Sound server db (state.send thread) := by
  have hfits := hsound.fits thread
  unfold State.send
  split
  · rename_i entry action htask hstage
    rw [htask, hstage] at hfits
    obtain ⟨heffect, hunanswered⟩ := hfits
    exact
      { recorded := hsound.recorded.answer ⟨entry.1, entry.2, action⟩ heffect hunanswered
        pool := hsound.pool
        numbered := hsound.numbered
        invoked := fun id task ↦ by
          rw [List.mem_append, List.mem_singleton, ← hsound.invoked]
          exact or_iff_left (by simp)
        queued := hsound.queued
        fits := fun other ↦ by
          show Fits _ _ (state.pool.phases other).task?
            (Function.update state.stages thread _ other)
          by_cases hsame : other = thread
          · rw [hsame, Function.update_self, htask]
            exact ⟨action, List.mem_append_right _ (List.mem_singleton_self _)⟩
          · rw [Function.update_of_ne hsame]
            exact (hsound.fits other).answer (hsound.number_ne htask hsame)
        done := fun done hdone ↦ by
          obtain ⟨result, hanswer⟩ := hsound.done done hdone
          exact ⟨result, List.mem_append_left _ hanswer⟩ }
  · exact hsound

/-- Threads may move outside of their tasks. -/
theorem Sound.of_pool (hsound : Sound server db state) {pool : ThreadPool.State n (ℕ × Task)}
    (hpool : ThreadPool.Sound pool) (haccepted : pool.accepted = state.pool.accepted)
    (hqueue : pool.queue = state.pool.queue) (hexecuted : pool.executed = state.pool.executed)
    (htasks : ∀ thread, (pool.phases thread).task? = (state.pool.phases thread).task?) :
    Sound server db { state with pool := pool } where
  recorded := hsound.recorded
  pool := hpool
  numbered := haccepted ▸ hsound.numbered
  invoked := haccepted ▸ hsound.invoked
  queued := hqueue ▸ hsound.queued
  fits thread := by
    show Fits _ _ (pool.phases thread).task? _
    rw [htasks]
    exact hsound.fits thread
  done := hexecuted ▸ hsound.done

theorem wake_sound (hsound : Sound server db state) (thread : Fin n) :
    Sound server db { state with pool := state.pool.wake thread } := by
  refine hsound.of_pool (ThreadPool.wake_sound hsound.pool thread)
    (ThreadPool.wake_kept state.pool thread).1 ?_ (ThreadPool.wake_kept state.pool thread).2
    (ThreadPool.task?_wake state.pool thread)
  unfold ThreadPool.State.wake
  split_ifs <;> rfl

theorem stop_sound (hsound : Sound server db state) :
    Sound server db { state with pool := state.pool.stop } :=
  hsound.of_pool (ThreadPool.stop_sound hsound.pool) rfl rfl rfl (ThreadPool.task?_stop state.pool)

/-- A thread that is in no task takes the front of the queue, or moves without a task. -/
theorem advance_free_sound (hsound : Sound server db state)
    (htask : (state.pool.phases thread).task? = none) :
    Sound server db { state with pool := state.pool.advance thread } := by
  have hfits := hsound.fits thread
  rw [htask] at hfits
  by_cases hcan : state.pool.CanStep thread
  · have hadvanced := ThreadPool.advance_of_canStep hcan
    have hpool := ThreadPool.advanced_sound hsound.pool hadvanced
    generalize state.pool.advance thread = pool at hadvanced hpool
    cases hadvanced with
    | enter | leave | wait | nothing =>
      exact hsound.of_pool hpool rfl rfl rfl (ThreadPool.task?_setPhase htask rfl)
    | begin front rest hphase hqueue =>
      have hfront : front ∈ state.pool.queue := hqueue ▸ List.mem_cons_self
      refine ⟨hsound.recorded, hpool, hsound.numbered, hsound.invoked, fun entry hentry ↦ ?_,
        fun other ↦ ?_, hsound.done⟩
      · exact hsound.queued entry (hqueue ▸ List.mem_cons_of_mem _ hentry)
      · show Fits _ _ ((state.pool.setPhase thread (.performing front)).phases other).task? _
        rw [ThreadPool.setPhase_phases]
        split_ifs with hsame
        · rw [hsame, show state.stages thread = .begun from hfits]
          exact hsound.queued front hfront
        · exact hsound.fits other
    | complete task hphase =>
      rw [hphase] at htask
      cases htask
  · rw [ThreadPool.advance_of_not_canStep hcan]
    exact hsound

/-- A thread at the end of `dealMessage` goes back to its loop. -/
theorem advance_ended_sound (hsound : Sound server db state)
    (htask : (state.pool.phases thread).task? = some entry)
    (hstage : state.stages thread = .ended) :
    Sound server db { state with
      pool := state.pool.advance thread
      stages := Function.update state.stages thread .begun } := by
  have hfits := hsound.fits thread
  rw [htask, hstage] at hfits
  have hphase := ThreadPool.task?_eq_some_iff.mp htask
  have hadvance : state.pool.advance thread = { state.pool.setPhase thread .looping with
      executed := state.pool.executed ++ [entry] } := by
    unfold ThreadPool.State.advance
    rw [hphase]
  have hpool := ThreadPool.advanced_sound hsound.pool (.complete entry hphase)
  rw [hadvance]
  refine ⟨hsound.recorded, hpool, hsound.numbered, hsound.invoked, hsound.queued,
    fun other ↦ ?_, fun done hdone ↦ ?_⟩
  · show Fits _ _ ((state.pool.setPhase thread .looping).phases other).task?
      (Function.update state.stages thread _ other)
    rw [ThreadPool.setPhase_phases]
    split_ifs with hsame
    · rw [hsame, Function.update_self]
      rfl
    · rw [Function.update_of_ne hsame]
      exact hsound.fits other
  · rcases List.mem_append.mp hdone with hold | hlast
    · exact hsound.done done hold
    · rw [List.mem_singleton.mp hlast]
      exact hfits

theorem advance_sound (hsound : Sound server db state) (thread : Fin n) :
    Sound server db (state.advance thread) := by
  unfold State.advance
  split
  · rename_i htask
    exact advance_free_sound hsound htask
  · rename_i htask hstage
    exact advance_ended_sound hsound htask hstage
  · exact hsound

theorem Sound.number_lt (hsound : Sound server db state) (haccepted : entry ∈ state.pool.accepted) :
    entry.1 < state.pool.accepted.length := by
  rw [← List.mem_range, ← hsound.numbered]
  exact List.mem_map_of_mem haccepted

theorem onStringMessage_sound (hsound : Sound server db state) (hthreads : 0 < n) (task : Task)
    (chosen : ℕ) : Sound server db (state.onStringMessage task chosen) := by
  rcases ThreadPool.run_cases state.pool (state.pool.accepted.length, task) chosen with
    ⟨hnone, -⟩ | ⟨-, hrunning, hrun⟩ | ⟨-, hstopped, hrun⟩
  · exact absurd hnone hthreads.ne'
  · have hpool : (state.onStringMessage task chosen).pool =
        (state.pool.push (state.pool.accepted.length, task)).notify chosen := hrun
    have haccepted : (state.onStringMessage task chosen).pool.accepted =
        state.pool.accepted ++ [(state.pool.accepted.length, task)] := by
      rw [hpool, (ThreadPool.notify_kept _ chosen).1]
      rfl
    have hqueue : (state.onStringMessage task chosen).pool.queue =
        state.pool.queue ++ [(state.pool.accepted.length, task)] := by
      rw [hpool]
      rcases ThreadPool.notify_cases (state.pool.push (state.pool.accepted.length, task)) chosen
        with ⟨-, hnotify⟩ | ⟨thread, -, hnotify⟩ <;> rw [hnotify] <;> rfl
    have hhistory : (state.onStringMessage task chosen).history =
        state.history ++ [.invoke state.pool.accepted.length task] := if_pos hrunning
    have hfresh : ∀ operation, .invoke state.pool.accepted.length operation ∉ state.history := by
      intro operation hinvoked
      exact (hsound.number_lt ((hsound.invoked _ _).mp hinvoked)).false
    refine ⟨?_, ThreadPool.handed_in_sound hsound.pool _ chosen, ?_, fun id other ↦ ?_,
      fun entry hentry ↦ ?_, fun thread ↦ ?_, fun entry hentry ↦ ?_⟩
    · rw [hhistory]
      exact hsound.recorded.invoke _ task hfresh
    · rw [haccepted, List.map_append, hsound.numbered, List.length_append, List.length_singleton,
        List.range_succ]
      rfl
    · rw [hhistory, haccepted, List.mem_append, List.mem_append, hsound.invoked]
      simp
    · rw [hqueue, List.mem_append, List.mem_singleton] at hentry
      rcases hentry with hentry | rfl
      · exact hsound.queued entry hentry
      · intro hnumber
        obtain ⟨effect, heffect, hid⟩ := List.mem_map.mp hnumber
        have hinvoked := hsound.recorded.linearizes.invoked effect heffect
        rw [hid] at hinvoked
        exact hfresh effect.operation hinvoked
    · show Fits _ _ ((state.pool.run _ chosen).phases thread).task? _
      rw [hhistory, ThreadPool.task?_run]
      exact (hsound.fits thread).invoke _ task
    · change entry ∈ (state.pool.run _ chosen).executed at hentry
      rw [ThreadPool.executed_run state.pool hthreads] at hentry
      obtain ⟨result, hanswer⟩ := hsound.done entry hentry
      rw [hhistory]
      exact ⟨result, List.mem_append_left _ hanswer⟩
  · have hsame : state.onStringMessage task chosen = state := by
      unfold State.onStringMessage
      rw [hrun, hstopped]
      rfl
    rw [hsame]
    exact hsound

theorem step_sound {move : Move n} (hthreads : 0 < n) (hsound : Sound server db state)
    (hstep : step server state move = .ok next) : Sound server db next := by
  cases move with
  | onStringMessage task chosen =>
    cases hstep
    exact onStringMessage_sound hsound hthreads task chosen
  | prepare thread connected => exact prepare_sound hsound hstep
  | query thread accepted =>
    cases hstep
    exact query_sound hsound thread accepted
  | send thread =>
    cases hstep
    exact send_sound hsound thread
  | advance thread =>
    cases hstep
    exact advance_sound hsound thread
  | wake thread =>
    cases hstep
    exact wake_sound hsound thread
  | stop =>
    cases hstep
    exact stop_sound hsound

end Steps

/-! ### Whole runs -/

section Runs

variable {server : MysqlServer σ} {db : σ} {moves : List (Move n)} {final : State n σ}

theorem reached_sound (hthreads : 0 < n)
    (hrun : run (step server) (start n db) moves = .ok final) : Sound server db final :=
  run_invariant (fun _ _ _ hsound hstep ↦ step_sound hthreads hsound hstep)
    (start_sound n server db) hrun

/-- Whatever the threads do at the same time, the messages have their effects and their answers as
if they were dealt with one at a time, in an order that real time allows. -/
theorem linearizable (hthreads : 0 < n)
    (hrun : run (step server) (start n db) moves = .ok final) :
    Linearizes (Deals server) db final.history final.order final.db :=
  (reached_sound hthreads hrun).recorded.linearizes

/-- When no thread can go on, every message that arrived was answered, and none twice. -/
theorem answered_when_quiet (hthreads : 0 < n)
    (hrun : run (step server) (start n db) moves = .ok final)
    (hrunning : final.pool.running = true) (hquiet : ∀ thread, ¬ final.pool.CanStep thread) :
    (∀ id task, .invoke id task ∈ final.history → ∃ action, .answer id action ∈ final.history) ∧
      (final.history.filterMap Event.answered).Nodup := by
  have hsound := reached_sound hthreads hrun
  obtain ⟨-, -, hexecuted⟩ := hsound.pool.quiescent hrunning hquiet
  refine ⟨fun id task hinvoked ↦ ?_, hsound.recorded.answers_nodup⟩
  have haccepted := (hsound.invoked id task).mp hinvoked
  exact hsound.done (id, task) (hexecuted.mem_iff.mpr haccepted)

/-! ### Reading what was written -/

/-- A message that does not upload the document leaves it in the table. -/
theorem content_of_deals {task : Task} {action : Action} {state next : σ} {document : DocumentKey}
    (hsafe : SafeMessage task.msg) (hother : ∀ body, uploadedBy task.msg ≠ some (document, body))
    (hdeals : Deals server state task action next) :
    server.content next document = server.content state document := by
  obtain ⟨answers, hdeal⟩ := hdeals
  rw [content_dealMessage server answers state hsafe hdeal]
  split
  · rename_i uploaded body hupload
    have hne : document ≠ uploaded := by
      rintro rfl
      exact hother body hupload
    split_ifs
    · exact Function.update_of_ne hne _ _
    · rfl
  · rfl

theorem safe_of_uploadedBy {msg : Bytes} {document : DocumentKey} {body : Bytes}
    (hsafe : SafeMessage msg) (hupload : uploadedBy msg = some (document, body)) :
    document.Safe := by
  obtain ⟨hlength, -, rfl, -⟩ := parseHeader_of_uploadedBy hupload
  exact hsafe hlength

/-- What a download is answered with when its document is in the table and is not empty. -/
theorem reply_of_content {task : Task} {action : Action} {state next : σ} {document : DocumentKey}
    {body : Bytes} (hsafe : document.Safe) (hnonempty : body ≠ [])
    (hdownload : downloadedBy task.msg = some document)
    (hcontent : server.content state document = some body)
    (hdeals : Deals server state task action next) :
    action = .reply ⟨ascii "RSDPJ", ascii "GZIP", document.userName, document.key, document.side,
        body⟩ ∨
      action = .reply ⟨ascii "RSDPJ", ascii "TXT", document.userName, document.key,
        document.side, ascii "FAIL"⟩ := by
  have hlength : ¬ body.length ≤ 0 := by
    rwa [Nat.le_zero, List.length_eq_zero_iff]
  have hfailed : downloadReply document (ascii "FAIL") = .reply ⟨ascii "RSDPJ", ascii "TXT",
      document.userName, document.key, document.side, ascii "FAIL"⟩ := rfl
  obtain ⟨answers, hdeal⟩ := hdeals
  rw [dealMessage_of_downloadedBy server answers state hdownload] at hdeal
  split_ifs at hdeal
  obtain ⟨-, rfl⟩ := Prod.mk.inj (Except.ok.inj hdeal)
  rw [result_mysqlQuery server answers state hsafe, hcontent]
  split_ifs
  · rw [Option.getD_some]
    by_cases hfail : body = ascii "FAIL"
    · rw [hfail]
      exact .inr hfailed
    · rw [downloadReply, if_neg hlength, if_neg hfail]
      exact .inl rfl
  · exact .inr hfailed

/-- A download that arrives when an upload of a document that is not empty had been answered with
success is answered with a frame that carries exactly the uploaded text, or is told that its own
query failed. This holds whatever else the server does, as long as the header values of all messages
are text safe, and each other upload of the document was answered before the first one arrived or
arrives when the download is answered. -/
theorem read_after_write {document : DocumentKey} {body : Bytes} {upload download : ℕ}
    {uploadTask downloadTask : Task} {reply : Message} {action : Action} (hthreads : 0 < n)
    (hrun : run (step server) (start n db) moves = .ok final)
    (hsafe : ∀ id task, .invoke id task ∈ final.history → SafeMessage task.msg)
    (hinvoked : .invoke upload uploadTask ∈ final.history)
    (hupload : uploadedBy uploadTask.msg = some (document, body)) (hnonempty : body ≠ [])
    (hsuccess : reply.body = ascii "SUCC")
    (hbefore : Before final.history (.answer upload (.reply reply))
      (.invoke download downloadTask))
    (hdownload : downloadedBy downloadTask.msg = some document)
    (hanswer : .answer download action ∈ final.history)
    (hothers : ∀ id task other, .invoke id task ∈ final.history → id ≠ upload →
      uploadedBy task.msg = some (document, other) →
      (∃ result, Before final.history (.answer id result) (.invoke upload uploadTask)) ∨
        Before final.history (.answer download action) (.invoke id task)) :
    action = .reply ⟨ascii "RSDPJ", ascii "GZIP", document.userName, document.key, document.side,
        body⟩ ∨
      action = .reply ⟨ascii "RSDPJ", ascii "TXT", document.userName, document.key,
        document.side, ascii "FAIL"⟩ := by
  have hrecorded := (reached_sound hthreads hrun).recorded
  have hlinearizes := hrecorded.linearizes
  obtain ⟨⟨written, first, _⟩, hfirst, rfl, rfl⟩ := hlinearizes.explained _ _ hbefore.mem.1
  obtain ⟨⟨_, second, _⟩, hsecond, rfl, rfl⟩ := hlinearizes.explained _ _ hanswer
  obtain rfl : first = uploadTask :=
    hrecorded.eq_of_invoke (hlinearizes.invoked _ hfirst) hinvoked
  obtain rfl : second = downloadTask :=
    hrecorded.eq_of_invoke (hlinearizes.invoked _ hsecond) hbefore.mem.2
  have hkey := safe_of_uploadedBy (hsafe _ _ hinvoked) hupload
  have hestablishes : ∀ state next, Deals server state first (.reply reply) next →
      server.content next document = some body :=
    fun state next ⟨answers, hdeal⟩ ↦
      content_of_success server answers state hkey hupload hdeal hsuccess
  have hfinds := hlinearizes.finds hfirst hsecond hbefore hestablishes fun other hother hne _ ↦ by
    have harrived := hlinearizes.invoked other hother
    by_cases hsame : ∃ text, uploadedBy other.operation.msg = some (document, text)
    · obtain ⟨text, htext⟩ := hsame
      have hid : other.id ≠ written := fun hid ↦ hne (hlinearizes.eq_of_id hother hfirst hid)
      rcases hothers other.id other.operation text harrived hid htext with
        ⟨result, hearlier⟩ | hlater
      · obtain ⟨effect, heffect, heq, rfl⟩ := hlinearizes.explained _ _ hearlier.mem.1
        obtain rfl := hlinearizes.eq_of_id heffect hother heq
        exact .inr (.inl hearlier)
      · exact .inr (.inr hlater)
    · refine .inl fun state next hcontent hdeals ↦ ?_
      rw [content_of_deals (hsafe _ _ harrived) (fun text htext ↦ hsame ⟨text, htext⟩) hdeals]
      exact hcontent
  obtain ⟨state, next, hcontent, hdeals⟩ := hfinds
  exact reply_of_content hkey hnonempty hdownload hcontent hdeals

end Runs

/-! ### An upload and a download -/

/-- A server with one thread that has dealt with some messages and looks for the next one. -/
def alone (db : σ) (accepted : List (ℕ × Task)) (history : List (Event ℕ Task Action))
    (order : List (Effect ℕ Task Action)) : State 1 σ :=
  ⟨⟨true, [], fun _ ↦ .looping, accepted, accepted, accepted⟩, fun _ ↦ .begun, db, history, order⟩

/-- A message arrives, and a thread deals with it. -/
def served (thread : Fin n) (task : Task) : List (Move n) :=
  [.onStringMessage task 0, .advance thread, .advance thread, .prepare thread true,
    .query thread true, .send thread, .advance thread]

theorem run_served (server : MysqlServer σ) (db : σ) (accepted : List (ℕ × Task))
    (history : List (Event ℕ Task Action)) (order : List (Effect ℕ Task Action)) {task : Task}
    (hprepare : prepare true task.msg = .ok none) :
    run (step server) (alone db accepted history order) (served 0 task) =
      .ok (alone (query server true db task.msg).1 (accepted ++ [(accepted.length, task)])
        (history ++ [.invoke accepted.length task,
          .answer accepted.length (query server true db task.msg).2])
        (order ++ [⟨accepted.length, task, (query server true db task.msg).2⟩])) := by
  have hupdate {α : Type} (f : Fin 1 → α) (value : α) : Function.update f 0 value = fun _ ↦ value :=
    Function.update_eq_const_of_subsingleton 0 value f
  have hthreads : List.finRange 1 = [0] := rfl
  simp [served, alone, run, step, hupdate, hthreads, hprepare, State.onStringMessage, State.advance,
    State.prepare, State.query, State.send, State.effect, ThreadPool.State.run,
    ThreadPool.State.push, ThreadPool.State.notify, ThreadPool.State.notified,
    ThreadPool.Phase.isWaiting, ThreadPool.Phase.task?, ThreadPool.State.advance,
    ThreadPool.State.take, ThreadPool.State.setPhase]

/-- Behind the second of two messages the thread finds the queue empty and waits. -/
theorem exists_served_twice (server : MysqlServer σ) (db : σ) {first second : Task}
    (hfirst : prepare true first.msg = .ok none) (hsecond : prepare true second.msg = .ok none) :
    ∃ final, run (step server) (start 1 db)
        (served 0 first ++ served 0 second ++ [.advance 0, .advance 0]) = .ok final ∧
      final.history = [.invoke 0 first, .answer 0 (query server true db first.msg).2,
        .invoke 1 second,
        .answer 1 (query server true (query server true db first.msg).1 second.msg).2] ∧
      final.pool.running = true ∧ ∀ thread, ¬ final.pool.CanStep thread := by
  have hupdate {α : Type} (f : Fin 1 → α) (value : α) : Function.update f 0 value = fun _ ↦ value :=
    Function.update_eq_const_of_subsingleton 0 value f
  have hwaits (db : σ) (accepted : List (ℕ × Task)) (history : List (Event ℕ Task Action))
      (order : List (Effect ℕ Task Action)) :
      run (step server) (alone db accepted history order) [.advance 0, .advance 0] =
        .ok ⟨⟨true, [], fun _ ↦ .waiting, accepted, accepted, accepted⟩, fun _ ↦ .begun, db,
          history, order⟩ := by
    simp [alone, run, step, hupdate, State.advance, ThreadPool.Phase.task?,
      ThreadPool.State.advance, ThreadPool.State.take, ThreadPool.State.setPhase]
  exact ⟨_, run_append_eq_ok_iff.mpr ⟨_, run_append_eq_ok_iff.mpr
    ⟨_, run_served server db [] [] [] hfirst, run_served server _ _ _ _ hsecond⟩, hwaits _ _ _ _⟩,
    rfl, rfl, fun _ hcan ↦ hcan⟩

theorem prepare_of_uploadedBy {msg : Bytes} {document : DocumentKey} {body : Bytes}
    (hupload : uploadedBy msg = some (document, body)) : prepare true msg = .ok none := by
  obtain ⟨hlength, hbranch, -, -⟩ := parseHeader_of_uploadedBy hupload
  unfold prepare
  rw [if_pos hlength]
  dsimp only
  rw [if_pos hbranch]
  rfl

theorem prepare_of_downloadedBy {msg : Bytes} {document : DocumentKey}
    (hdownload : downloadedBy msg = some document) : prepare true msg = .ok none := by
  obtain ⟨hlength, hcmd, -⟩ := parseHeader_of_downloadedBy hdownload
  unfold prepare
  rw [if_pos hlength]
  dsimp only
  rw [if_neg fun hboth ↦ absurd (hcmd.symm.trans hboth.1) (by decide), if_pos hcmd]
  rfl

theorem query_of_uploadedBy (server : MysqlServer σ) (db : σ) {msg : Bytes}
    {document : DocumentKey} {body : Bytes} (hupload : uploadedBy msg = some (document, body)) :
    ∃ reply, (query server true db msg).2 = .reply reply ∧ reply.body = ascii "SUCC" := by
  obtain ⟨-, hbranch, -, -⟩ := parseHeader_of_uploadedBy hupload
  unfold query
  dsimp only
  rw [if_pos hbranch]
  exact ⟨_, rfl, rfl⟩

/-- A download of the document that `annualUpload` uploads. -/
def annualDownload : Task := ⟨2, payload (downloadOf (annual (ascii "2024")))⟩

theorem annualUpload_uploads (body : Bytes) :
    uploadedBy (annualUpload body).msg = some ((annual (ascii "2024")).stored, body) :=
  uploadedBy_uploadOf annual_carried_2024 body

theorem annualDownload_downloads :
    downloadedBy annualDownload.msg = some (annual (ascii "2024")).stored :=
  downloadedBy_downloadOf annual_carried_2024

/-- One client uploads a document, and another one downloads it. -/
theorem exists_uploaded_downloaded :
    ∃ final download reply, run (step .ofTable) (start 1 fun _ ↦ none)
        (served 0 (annualUpload [1]) ++ served 0 annualDownload ++ [.advance 0, .advance 0]) =
          .ok final ∧
      final.history = [.invoke 0 (annualUpload [1]), .answer 0 (.reply reply),
        .invoke 1 annualDownload, .answer 1 download] ∧ reply.body = ascii "SUCC" ∧
      final.pool.running = true ∧ ∀ thread, ¬ final.pool.CanStep thread := by
  obtain ⟨reply, hreply, hsuccess⟩ := query_of_uploadedBy .ofTable (fun _ ↦ none)
    (annualUpload_uploads [1])
  obtain ⟨final, hrun, hhistory, hrunning, hquiet⟩ := exists_served_twice .ofTable (fun _ ↦ none)
    (prepare_of_uploadedBy (annualUpload_uploads [1]))
    (prepare_of_downloadedBy annualDownload_downloads)
  rw [hreply] at hhistory
  exact ⟨final, _, reply, hrun, hhistory, hsuccess, hrunning, hquiet⟩

theorem linearizable_annual :
    ∃ final, run (step .ofTable) (start 1 fun _ ↦ none)
        (served 0 (annualUpload [1]) ++ served 0 annualDownload ++ [.advance 0, .advance 0]) =
          .ok final ∧
      Linearizes (Deals .ofTable) (fun _ ↦ none) final.history final.order final.db := by
  obtain ⟨final, -, -, hrun, -⟩ := exists_uploaded_downloaded
  exact ⟨final, hrun, linearizable Nat.one_pos hrun⟩

theorem answered_when_quiet_annual :
    ∃ final, run (step .ofTable) (start 1 fun _ ↦ none)
        (served 0 (annualUpload [1]) ++ served 0 annualDownload ++ [.advance 0, .advance 0]) =
          .ok final ∧
      (∀ id task, .invoke id task ∈ final.history →
        ∃ action, .answer id action ∈ final.history) ∧
      (final.history.filterMap Event.answered).Nodup := by
  obtain ⟨final, -, -, hrun, -, -, hrunning, hquiet⟩ := exists_uploaded_downloaded
  exact ⟨final, hrun, answered_when_quiet Nat.one_pos hrun hrunning hquiet⟩

theorem read_after_write_annual :
    ∃ final download, run (step .ofTable) (start 1 fun _ ↦ none)
        (served 0 (annualUpload [1]) ++ served 0 annualDownload ++ [.advance 0, .advance 0]) =
          .ok final ∧ .answer 1 download ∈ final.history ∧
      (download = .reply ⟨ascii "RSDPJ", ascii "GZIP", ascii "ann", ascii "202", ascii "B", [1]⟩ ∨
        download = .reply ⟨ascii "RSDPJ", ascii "TXT", ascii "ann", ascii "202", ascii "B",
          ascii "FAIL"⟩) := by
  obtain ⟨final, download, reply, hrun, hhistory, hsuccess, -⟩ := exists_uploaded_downloaded
  have hinvoked : ∀ id task, .invoke id task ∈ final.history →
      id = 0 ∧ task = annualUpload [1] ∨ id = 1 ∧ task = annualDownload := by
    intro id task hmem
    simpa [hhistory] using hmem
  have hanswer : .answer 1 download ∈ final.history := by simp [hhistory]
  have hbefore : Before final.history (.answer 0 (.reply reply)) (.invoke 1 annualDownload) :=
    ⟨[.invoke 0 (annualUpload [1]), .answer 0 (.reply reply)],
      [.invoke 1 annualDownload, .answer 1 download], hhistory, by simp, by simp⟩
  refine ⟨final, download, hrun, hanswer, read_after_write Nat.one_pos hrun ?_ ?_
    (annualUpload_uploads [1]) (List.cons_ne_nil _ _) hsuccess hbefore annualDownload_downloads
    hanswer ?_⟩
  · intro id task hmem
    rcases hinvoked id task hmem with ⟨-, rfl⟩ | ⟨-, rfl⟩
    · exact safeMessage_transfer (uploadOf_transfer annual_carried_2024 [1])
    · exact safeMessage_transfer (downloadOf_transfer annual_carried_2024)
  · simp [hhistory]
  · intro id task other hmem hid hupload
    rcases hinvoked id task hmem with ⟨hzero, -⟩ | ⟨-, rfl⟩
    · exact absurd hzero hid
    · have hcmd := (parseHeader_of_uploadedBy hupload).2.1.1
      rw [(parseHeader_of_downloadedBy annualDownload_downloads).2.1] at hcmd
      exact absurd hcmd (by decide)

end TradeServers.LogTimeServer.Requests
