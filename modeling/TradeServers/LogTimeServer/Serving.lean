import TradeServers.Library.Holders
import TradeServers.LogTimeServer.Requests
import TradeServers.LogTimeServer.Sizing

/-!
# The threads and the connections of the log time server

`Requests` lets the surroundings say whether `getOneConnect` returns a connection, and `Wakeups`
lets anybody call it. In the server the threads of the pool call it, each in the messages that need
a connection, and keep the connection until `dealMessage` returns.

- `refines_requests`, `refines_wakeups`: the server is a run of both.
- `exclusive`: a thread that executes a statement does so on a connection of its own.
- `given_back`: when the threads have come to rest, so have all connections.
-/

set_option autoImplicit false
set_option relaxedAutoImplicit false

namespace TradeServers.LogTimeServer.Serving

open Execution Workers Linearization
open Requests (Stage)

variable {σ : Type} {n : ℕ}

/-! ### The server -/

/-- A fault of the connection pool, or one in a message. -/
inductive Fault
  | pool (fault : Pool.Fault)
  | request (fault : LogTimeServer.Fault)

/-- The threads with their messages and the database, the connection pool, and the connection that
each thread holds. The threads call the pool under their numbers. -/
structure State (n : ℕ) (σ : Type) where
  requests : Requests.State n σ
  connections : Wakeups.State
  holding : Fin n → Option ℕ

def start (n : ℕ) (db : σ) (pool : Pool.State) : State n σ :=
  ⟨Requests.start n db, Wakeups.start pool, fun _ ↦ none⟩

/-- What happens in the server: a message arrives, a thread takes its next step in `dealMessage`, in
`getOneConnect` or outside of both, or the producer, the scanner or the deleter of a connection has
the mutex of the pool. -/
inductive Move (n : ℕ)
  | onStringMessage (task : Task) (chosen : ℕ)
  | enter (thread : Fin n) (dead : ℕ → Bool)
  | resume (thread : Fin n) (dead : ℕ → Bool)
  | timeout (thread : Fin n) (dead : ℕ → Bool)
  | query (thread : Fin n) (accepted : Bool)
  | send (thread : Fin n)
  | release (thread : Fin n) (now : ℤ)
  | advance (thread : Fin n)
  | wake (thread : Fin n)
  | stop
  | produce (now : ℤ)
  | scan (dead : ℕ → Bool) (clock : ℕ → ℤ)
  | wakeProducer
  | wakeCaller (thread : Fin n)

/-- Dealing with the message calls `getOneConnect`. -/
def Calls (msg : Bytes) : Prop := Requests.prepare true msg = .ok none

instance (msg : Bytes) : Decidable (Calls msg) :=
  match hprepare : Requests.prepare true msg with
  | .ok none => .isTrue hprepare
  | .ok (some _) => .isFalse fun hcalls ↦ by simp [Calls, hprepare] at hcalls
  | .error _ => .isFalse fun hcalls ↦ by simp [Calls, hprepare] at hcalls

/-- What a call of `getOneConnect` has returned when the pool has come from one state to another:
whether a connection or the null pointer, or nothing yet. -/
def returned (before after : Wakeups.State) : Option Bool :=
  if after.served ≠ before.served then some true
  else if after.failed ≠ before.failed then some false
  else none

/-- The message that a thread deals with, and how far it is. -/
def place (requests : Requests.State n σ) (thread : Fin n) : Option (ℕ × Task) × Stage :=
  ((requests.pool.phases thread).task?, requests.stages thread)

namespace State

/-- A thread goes on in `dealMessage` behind `getOneConnect`. -/
def prepare (state : State n σ) (thread : Fin n) (connected : Bool) : Except Fault (State n σ) :=
  match state.requests.prepare thread connected with
  | .error fault => .error (.request fault)
  | .ok requests => .ok { state with requests := requests }

/-- A thread takes a step in `getOneConnect`. The connection that it gets is the one that was
borrowed last. -/
def getOneConnect (config : Pool.Config) (state : State n σ) (thread : Fin n)
    (action : Wakeups.Action) : Except Fault (State n σ) :=
  match Wakeups.step config state.connections action with
  | .error fault => .error (.pool fault)
  | .ok connections =>
    match returned state.connections connections with
    | none => .ok { state with connections := connections }
    | some false => { state with connections := connections }.prepare thread false
    | some true =>
      let connection := connections.pool.borrowed.getLast?.map Pool.Connection.id
      { state with
        connections := connections
        holding := Function.update state.holding thread connection }.prepare thread true

/-- A thread at the beginning of `dealMessage` calls `getOneConnect` if its message needs it. -/
def enter (config : Pool.Config) (state : State n σ) (thread : Fin n) (dead : ℕ → Bool) :
    Except Fault (State n σ) :=
  match place state.requests thread with
  | (some entry, .begun) =>
    if Calls entry.2.msg then state.getOneConnect config thread (.call thread dead)
    else state.prepare thread true
  | _ => .ok state

/-- The pool when a borrowed connection comes back. -/
def giveBack (connections : Wakeups.State) (id : ℕ) (now : ℤ) : Wakeups.State :=
  { connections with
    pool := Pool.giveBack (connections.pool.borrowed.findIdx fun other ↦ other.id = id) now
      connections.pool }

/-- At the end of `dealMessage` a thread lets go of its connection. -/
def release (state : State n σ) (thread : Fin n) (now : ℤ) : State n σ :=
  match state.holding thread, state.requests.stages thread with
  | some id, .ended =>
    { state with
      connections := giveBack state.connections id now
      holding := Function.update state.holding thread none }
  | _, _ => state

/-- A thread that holds no connection takes a step outside of `dealMessage`. -/
def advance (state : State n σ) (thread : Fin n) : State n σ :=
  match state.holding thread with
  | none => { state with requests := state.requests.advance thread }
  | some _ => state

/-- A step of the pool that no thread takes. -/
def connect (config : Pool.Config) (state : State n σ) (action : Wakeups.Action) :
    Except Fault (State n σ) :=
  match Wakeups.step config state.connections action with
  | .error fault => .error (.pool fault)
  | .ok connections => .ok { state with connections := connections }

end State

def step (server : MysqlServer σ) (config : Pool.Config) (state : State n σ) :
    Move n → Except Fault (State n σ)
  | .onStringMessage task chosen =>
    .ok { state with requests := state.requests.onStringMessage task chosen }
  | .enter thread dead => state.enter config thread dead
  | .resume thread dead => state.getOneConnect config thread (.resume thread dead)
  | .timeout thread dead => state.getOneConnect config thread (.timeout thread dead)
  | .query thread accepted =>
    .ok { state with requests := state.requests.query server thread accepted }
  | .send thread => .ok { state with requests := state.requests.send thread }
  | .release thread now => .ok (state.release thread now)
  | .advance thread => .ok (state.advance thread)
  | .wake thread =>
    .ok { state with requests := { state.requests with pool := state.requests.pool.wake thread } }
  | .stop => .ok { state with requests := { state.requests with pool := state.requests.pool.stop } }
  | .produce now => state.connect config (.produce now)
  | .scan dead clock => state.connect config (.scan dead clock)
  | .wakeProducer => state.connect config .wakeProducer
  | .wakeCaller thread => state.connect config (.wakeCaller thread)

/-! ### What the steps do -/

section Cases

variable {server : MysqlServer σ} {config : Pool.Config} {state next : State n σ} {thread : Fin n}
  {connected : Bool} {action : Wakeups.Action} {dead : ℕ → Bool}

theorem prepare_eq_ok (hprepare : state.prepare thread connected = .ok next) :
    state.requests.prepare thread connected = .ok next.requests ∧
      next.connections = state.connections ∧ next.holding = state.holding := by
  unfold State.prepare at hprepare
  split at hprepare
  · cases hprepare
  · rename_i requests hrequests
    cases hprepare
    exact ⟨hrequests, rfl, rfl⟩

/-- A step in `getOneConnect` is one of the pool; when it returns, the thread goes on with what it
has got. -/
theorem getOneConnect_cases (hstep : state.getOneConnect config thread action = .ok next) :
    Wakeups.step config state.connections action = .ok next.connections ∧
      (returned state.connections next.connections = none ∧ next.requests = state.requests ∧
          next.holding = state.holding ∨
        returned state.connections next.connections = some false ∧
          state.requests.prepare thread false = .ok next.requests ∧
          next.holding = state.holding ∨
        returned state.connections next.connections = some true ∧
          state.requests.prepare thread true = .ok next.requests ∧
          next.holding = Function.update state.holding thread
            (next.connections.pool.borrowed.getLast?.map Pool.Connection.id)) := by
  unfold State.getOneConnect at hstep
  split at hstep
  · cases hstep
  · rename_i connections hconnections
    split at hstep
    · rename_i hreturned
      cases hstep
      exact ⟨hconnections, .inl ⟨hreturned, rfl, rfl⟩⟩
    · rename_i hreturned
      obtain ⟨hprepare, hsame, hholding⟩ := prepare_eq_ok hstep
      rw [hsame]
      exact ⟨hconnections, .inr (.inl ⟨hreturned, hprepare, hholding⟩)⟩
    · rename_i hreturned
      obtain ⟨hprepare, hsame, hholding⟩ := prepare_eq_ok hstep
      rw [hsame]
      exact ⟨hconnections, .inr (.inr ⟨hreturned, hprepare, hholding⟩)⟩

theorem enter_cases (hstep : state.enter config thread dead = .ok next) :
    next = state ∨ ∃ entry, place state.requests thread = (some entry, .begun) ∧
      (Calls entry.2.msg ∧ state.getOneConnect config thread (.call thread dead) = .ok next ∨
        ¬ Calls entry.2.msg ∧ state.prepare thread true = .ok next) := by
  unfold State.enter at hstep
  split at hstep
  · rename_i entry hplace
    split_ifs at hstep with hcalls
    · exact .inr ⟨entry, hplace, .inl ⟨hcalls, hstep⟩⟩
    · exact .inr ⟨entry, hplace, .inr ⟨hcalls, hstep⟩⟩
  · exact .inl (Except.ok.inj hstep).symm

theorem connect_eq_ok (hstep : state.connect config action = .ok next) :
    Wakeups.step config state.connections action = .ok next.connections ∧
      next.requests = state.requests ∧ next.holding = state.holding := by
  unfold State.connect at hstep
  split at hstep
  · cases hstep
  · rename_i connections hconnections
    cases hstep
    exact ⟨hconnections, rfl, rfl⟩

theorem release_cases (state : State n σ) (thread : Fin n) (now : ℤ) :
    state.release thread now = state ∨ ∃ id, state.holding thread = some id ∧
      state.requests.stages thread = .ended ∧ state.release thread now =
        { state with
          connections := State.giveBack state.connections id now
          holding := Function.update state.holding thread none } := by
  unfold State.release
  split
  · rename_i id hholds hstage
    exact .inr ⟨id, hholds, hstage, rfl⟩
  · exact .inl rfl

theorem getOneConnect_requests (server : MysqlServer σ)
    (hstep : state.getOneConnect config thread action = .ok next) :
    ∃ moves, run (Requests.step server) state.requests moves = .ok next.requests := by
  rcases (getOneConnect_cases hstep).2 with ⟨-, hsame, -⟩ | ⟨-, hprepare, -⟩ | ⟨-, hprepare, -⟩
  · exact ⟨[], congrArg Except.ok hsame.symm⟩
  · exact ⟨[.prepare thread false], run_cons_ok hprepare []⟩
  · exact ⟨[.prepare thread true], run_cons_ok hprepare []⟩

/-- As far as it concerns the messages, a step of the server is one of `Requests`, or none. -/
theorem step_requests {move : Move n} (hstep : step server config state move = .ok next) :
    ∃ moves, run (Requests.step server) state.requests moves = .ok next.requests := by
  have hsingle : ∀ move, Requests.step server state.requests move = .ok next.requests →
      ∃ moves, run (Requests.step server) state.requests moves = .ok next.requests :=
    fun move hmove ↦ ⟨[move], run_cons_ok hmove []⟩
  have hnone : next.requests = state.requests →
      ∃ moves, run (Requests.step server) state.requests moves = .ok next.requests :=
    fun hsame ↦ ⟨[], congrArg Except.ok hsame.symm⟩
  cases move with
  | onStringMessage task chosen =>
    cases hstep
    exact hsingle (.onStringMessage task chosen) rfl
  | enter thread dead =>
    rcases enter_cases hstep with rfl | ⟨entry, -, ⟨-, hcall⟩ | ⟨-, hprepare⟩⟩
    · exact hnone rfl
    · exact getOneConnect_requests server hcall
    · exact hsingle (.prepare thread true) (prepare_eq_ok hprepare).1
  | resume thread dead => exact getOneConnect_requests server hstep
  | timeout thread dead => exact getOneConnect_requests server hstep
  | query thread accepted =>
    cases hstep
    exact hsingle (.query thread accepted) rfl
  | send thread =>
    cases hstep
    exact hsingle (.send thread) rfl
  | release thread now =>
    cases hstep
    rcases release_cases state thread now with hsame | ⟨_, -, -, hrelease⟩
    · exact hnone (by rw [hsame])
    · exact hnone (by rw [hrelease])
  | advance thread =>
    cases hstep
    show ∃ moves, run (Requests.step server) state.requests moves =
      .ok (state.advance thread).requests
    unfold State.advance
    split
    · exact ⟨[.advance thread], rfl⟩
    · exact ⟨[], rfl⟩
  | wake thread =>
    cases hstep
    exact hsingle (.wake thread) rfl
  | stop =>
    cases hstep
    exact hsingle .stop rfl
  | produce now =>
    have hconnect : state.connect config (.produce now) = .ok next := hstep
    exact hnone (connect_eq_ok hconnect).2.1
  | scan dead clock =>
    have hconnect : state.connect config (.scan dead clock) = .ok next := hstep
    exact hnone (connect_eq_ok hconnect).2.1
  | wakeProducer =>
    have hconnect : state.connect config .wakeProducer = .ok next := hstep
    exact hnone (connect_eq_ok hconnect).2.1
  | wakeCaller thread =>
    have hconnect : state.connect config (.wakeCaller thread) = .ok next := hstep
    exact hnone (connect_eq_ok hconnect).2.1

/-- As far as it concerns the connections, a step of the server is one of `Wakeups`, or none. -/
theorem step_connections {move : Move n} (hstep : step server config state move = .ok next) :
    ∃ actions, run (Wakeups.step config) state.connections actions = .ok next.connections := by
  have hsingle : ∀ action, Wakeups.step config state.connections action = .ok next.connections →
      ∃ actions, run (Wakeups.step config) state.connections actions = .ok next.connections :=
    fun action haction ↦ ⟨[action], run_cons_ok haction []⟩
  have hnone : next.connections = state.connections →
      ∃ actions, run (Wakeups.step config) state.connections actions = .ok next.connections :=
    fun hsame ↦ ⟨[], congrArg Except.ok hsame.symm⟩
  cases move with
  | enter thread dead =>
    rcases enter_cases hstep with rfl | ⟨entry, -, ⟨-, hcall⟩ | ⟨-, hprepare⟩⟩
    · exact hnone rfl
    · exact hsingle _ (getOneConnect_cases hcall).1
    · exact hnone (prepare_eq_ok hprepare).2.1
  | resume thread dead => exact hsingle _ (getOneConnect_cases hstep).1
  | timeout thread dead => exact hsingle _ (getOneConnect_cases hstep).1
  | release thread now =>
    cases hstep
    rcases release_cases state thread now with hsame | ⟨id, -, -, hrelease⟩
    · exact hnone (by rw [hsame])
    · exact hsingle (.giveBack (state.connections.pool.borrowed.findIdx fun other ↦
        other.id = id) now) (by rw [hrelease]; rfl)
  | produce now =>
    have hconnect : state.connect config (.produce now) = .ok next := hstep
    exact hsingle _ (connect_eq_ok hconnect).1
  | scan dead clock =>
    have hconnect : state.connect config (.scan dead clock) = .ok next := hstep
    exact hsingle _ (connect_eq_ok hconnect).1
  | wakeProducer =>
    have hconnect : state.connect config .wakeProducer = .ok next := hstep
    exact hsingle _ (connect_eq_ok hconnect).1
  | wakeCaller thread =>
    have hconnect : state.connect config (.wakeCaller thread) = .ok next := hstep
    exact hsingle _ (connect_eq_ok hconnect).1
  | advance thread =>
    cases hstep
    refine hnone ?_
    show (state.advance thread).connections = _
    unfold State.advance
    split <;> rfl
  | onStringMessage task chosen | query thread accepted | send thread | wake thread | stop =>
    cases hstep
    exact hnone rfl

end Cases

/-! ### Calls of `getOneConnect` -/

section Calling

variable {config : Pool.Config} {before after : Wakeups.State} {caller : ℕ} {dead : ℕ → Bool}

/-- What a look at the queue leads to: the call waits for an empty queue, or returns the null
pointer, or it gets a connection. -/
inductive Looked (caller : ℕ) (dead : ℕ → Bool) (before : Wakeups.State) : Wakeups.State → Prop
  | waits (waiters : List (ℕ × Bool)) (hempty : before.pool.queue = [])
      (hwaiters : ∀ other ∈ waiters.map Prod.fst,
        other ∈ before.waiters.map Prod.fst ∨ other = caller) :
      Looked caller dead before { before with waiters := waiters }
  | fails (hempty : before.pool.queue = []) :
      Looked caller dead before
        ({ before with failed := before.failed ++ [caller] }.leave caller)
  | gets {after : Wakeups.State} (hqueue : before.pool.queue ≠ [])
      (htake : before.take caller dead = .ok after) : Looked caller dead before after

theorem looked_of_call (hstep : Wakeups.step config before (.call caller dead) = .ok after) :
    after = before ∨ Looked caller dead before after := by
  change before.call caller dead = .ok after at hstep
  unfold Wakeups.State.call at hstep
  split_ifs at hstep
  · exact .inl (Except.ok.inj hstep).symm
  · right
    rcases Wakeups.look_cases hstep with ⟨hempty, rfl⟩ | ⟨hqueue, htake⟩
    · refine .waits _ hempty fun other hother ↦ ?_
      rw [List.map_append, List.mem_append] at hother
      exact hother.imp id fun hlast ↦ List.mem_singleton.mp hlast
    · exact .gets hqueue htake

theorem looked_of_resume (hstep : Wakeups.step config before (.resume caller dead) = .ok after) :
    after = before ∨ caller ∈ before.waiters.map Prod.fst ∧ Looked caller dead before after := by
  change before.resume caller dead = .ok after at hstep
  unfold Wakeups.State.resume at hstep
  split_ifs at hstep with hwaits
  · right
    refine ⟨List.mem_map.mpr ⟨_, hwaits, rfl⟩, ?_⟩
    rcases Wakeups.look_cases hstep with ⟨hempty, rfl⟩ | ⟨hqueue, htake⟩
    · refine .waits _ hempty fun other hother ↦ .inl ?_
      obtain ⟨waiter, hwaiter, rfl⟩ := List.mem_map.mp hother
      obtain ⟨waiter, hbefore, rfl⟩ := List.mem_map.mp hwaiter
      refine List.mem_map.mpr ⟨waiter, hbefore, ?_⟩
      split_ifs with hsame
      · exact hsame
      · rfl
    · exact .gets hqueue htake
  · exact .inl (Except.ok.inj hstep).symm

theorem looked_of_timeout (hstep : Wakeups.step config before (.timeout caller dead) = .ok after) :
    after = before ∨ caller ∈ before.waiters.map Prod.fst ∧ Looked caller dead before after := by
  change before.timeout caller dead = .ok after at hstep
  unfold Wakeups.State.timeout at hstep
  split_ifs at hstep with hwaits
  · refine .inr ⟨hwaits, ?_⟩
    rcases Wakeups.look_cases hstep with ⟨hempty, rfl⟩ | ⟨hqueue, htake⟩
    · exact .fails hempty
    · exact .gets hqueue htake
  · exact .inl (Except.ok.inj hstep).symm

/-- The connection that a call gets is borrowed behind the others. -/
theorem borrowed_of_getOneConnect {pool next : Pool.State} (hqueue : pool.queue ≠ [])
    (hget : Pool.getOneConnect dead pool = .ok next) :
    ∃ front, next.borrowed = pool.borrowed ++ [front] := by
  have hevicted := (Pool.evictDead_spec dead pool.queue pool rfl).2.1
  unfold Pool.getOneConnect at hget
  rw [if_neg hqueue] at hget
  dsimp only at hget
  split at hget
  · cases hget
  · rename_i front rest _
    cases hget
    exact ⟨front, by rw [← hevicted]⟩

theorem take_spec (hqueue : before.pool.queue ≠ []) (htake : before.take caller dead = .ok after) :
    returned before after = some true ∧
      (∃ front, after.pool.borrowed = before.pool.borrowed ++ [front]) ∧
      ∀ other ∈ after.waiters.map Prod.fst,
        other ∈ before.waiters.map Prod.fst ∧ other ≠ caller := by
  unfold Wakeups.State.take at htake
  split at htake
  · cases htake
  · rename_i pool hget
    cases htake
    refine ⟨?_, borrowed_of_getOneConnect hqueue hget, fun other hother ↦ ?_⟩
    · simp [returned, Wakeups.State.notifyAll, Wakeups.State.leave]
    · simp only [Wakeups.State.notifyAll, Wakeups.State.leave, List.map_map] at hother
      obtain ⟨waiter, hwaiter, rfl⟩ := List.mem_map.mp hother
      obtain ⟨hbefore, hne⟩ := List.mem_filter.mp hwaiter
      exact ⟨List.mem_map.mpr ⟨waiter, hbefore, rfl⟩, by simpa using hne⟩

theorem fails_spec (before : Wakeups.State) (caller : ℕ) :
    returned before ({ before with failed := before.failed ++ [caller] }.leave caller) =
        some false ∧
      ∀ other ∈ ({ before with failed := before.failed ++ [caller] }.leave caller).waiters.map
        Prod.fst, other ∈ before.waiters.map Prod.fst ∧ other ≠ caller := by
  refine ⟨by simp [returned, Wakeups.State.leave], fun other hother ↦ ?_⟩
  obtain ⟨waiter, hwaiter, rfl⟩ := List.mem_map.mp hother
  obtain ⟨hbefore, hne⟩ := List.mem_filter.mp hwaiter
  exact ⟨List.mem_map_of_mem hbefore, by simpa using hne⟩

end Calling

/-! ### The threads in `dealMessage` -/

section Places

variable {server : MysqlServer σ} {requests next : Requests.State n σ} {thread other : Fin n}
  {entry : ℕ × Task}

/-- What a thread may hold in each place: a connection before its statement, and none before it has
called `getOneConnect` or outside of `dealMessage`. -/
inductive Placed : Option (ℕ × Task) × Stage → Option ℕ → Prop
  | idle : Placed (none, .begun) none
  | begun (entry : ℕ × Task) : Placed (some entry, .begun) none
  | connected (entry : ℕ × Task) (id : ℕ) : Placed (some entry, .connected) (some id)
  | decided (entry : ℕ × Task) (action : Action) (holding : Option ℕ) :
      Placed (some entry, .decided action) holding
  | ended (entry : ℕ × Task) (holding : Option ℕ) : Placed (some entry, .ended) holding

/-- A thread that goes on in `dealMessage` moves alone. -/
theorem place_of_stages {stage : Stage} (hpool : next.pool = requests.pool)
    (hstages : next.stages = Function.update requests.stages thread stage) :
    place next = Function.update (place requests) thread
      ((requests.pool.phases thread).task?, stage) := by
  funext other
  by_cases hsame : other = thread
  · rw [hsame, Function.update_self, place, hpool, hstages, Function.update_self]
  · rw [Function.update_of_ne hsame, place, hpool, hstages, Function.update_of_ne hsame, place]

/-- Behind `getOneConnect` a thread comes to its statement or has decided what to do. -/
theorem prepare_of_begun {connected : Bool} (hplace : place requests thread = (some entry, .begun))
    (hprepare : requests.prepare thread connected = .ok next) :
    Requests.prepare connected entry.2.msg = .ok none ∧ next.order = requests.order ∧
        place next = Function.update (place requests) thread (some entry, .connected) ∨
      ∃ action, Requests.prepare connected entry.2.msg = .ok (some action) ∧
        next.order = requests.order ++ [⟨entry.1, entry.2, action⟩] ∧
        place next = Function.update (place requests) thread (some entry, .decided action) := by
  obtain ⟨htask, hstage⟩ := Prod.mk.inj hplace
  unfold Requests.State.prepare at hprepare
  rw [htask, hstage] at hprepare
  dsimp only at hprepare
  split at hprepare
  · cases hprepare
  · rename_i action hdecided
    cases hprepare
    exact .inr ⟨action, hdecided, rfl, htask ▸ place_of_stages rfl rfl⟩
  · rename_i hneeds
    cases hprepare
    exact .inl ⟨hneeds, rfl, htask ▸ place_of_stages rfl rfl⟩

/-- What a thread with a connection does. -/
theorem query_of_connected (server : MysqlServer σ) (accepted : Bool)
    (hplace : place requests thread = (some entry, .connected)) :
    requests.query server thread accepted = requests.effect thread entry
      (Requests.query server accepted requests.db entry.2.msg) := by
  obtain ⟨htask, hstage⟩ := Prod.mk.inj hplace
  unfold Requests.State.query
  rw [htask, hstage]

theorem place_query (server : MysqlServer σ) (accepted : Bool)
    (hplace : place requests thread = (some entry, .connected)) :
    place (requests.query server thread accepted) = Function.update (place requests) thread
      (some entry, .decided (Requests.query server accepted requests.db entry.2.msg).2) := by
  rw [query_of_connected server accepted hplace, ← (Prod.mk.inj hplace).1]
  exact place_of_stages rfl rfl

/-- A statement is executed by a thread with a connection only. -/
theorem query_cases (server : MysqlServer σ) (requests : Requests.State n σ) (thread : Fin n)
    (accepted : Bool) :
    requests.query server thread accepted = requests ∨
      ∃ entry, place requests thread = (some entry, .connected) := by
  unfold Requests.State.query
  split
  · rename_i entry htask hstage
    exact .inr ⟨entry, Prod.ext htask hstage⟩
  · exact .inl rfl

/-- What a thread that has decided what to do does. -/
theorem send_of_decided {action : Action}
    (hplace : place requests thread = (some entry, .decided action)) :
    requests.send thread = { requests with
      history := requests.history ++ [.answer entry.1 action]
      stages := Function.update requests.stages thread .ended } := by
  obtain ⟨htask, hstage⟩ := Prod.mk.inj hplace
  unfold Requests.State.send
  rw [htask, hstage]

theorem place_send {action : Action}
    (hplace : place requests thread = (some entry, .decided action)) :
    place (requests.send thread) =
      Function.update (place requests) thread (some entry, .ended) := by
  rw [send_of_decided hplace, ← (Prod.mk.inj hplace).1]
  exact place_of_stages rfl rfl

theorem send_cases (requests : Requests.State n σ) (thread : Fin n) :
    requests.send thread = requests ∨
      ∃ entry action, place requests thread = (some entry, .decided action) := by
  unfold Requests.State.send
  split
  · rename_i entry action htask hstage
    exact .inr ⟨entry, action, Prod.ext htask hstage⟩
  · exact .inl rfl

/-- Without a connection `dealMessage` comes to no statement. -/
theorem prepare_false_ne (msg : Bytes) : Requests.prepare false msg ≠ .ok none := by
  unfold Requests.prepare
  simp only [Bool.false_eq_true, if_false]
  split_ifs <;> simp

theorem phases_advance_of_ne {τ : Type} (pool : ThreadPool.State n τ) (hne : other ≠ thread) :
    (pool.advance thread).phases other = pool.phases other := by
  unfold ThreadPool.State.advance ThreadPool.State.take
  split
  · exact (ThreadPool.setPhase_phases ..).trans (if_neg hne)
  · split <;> exact (ThreadPool.setPhase_phases ..).trans (if_neg hne)
  · split <;> exact (ThreadPool.setPhase_phases ..).trans (if_neg hne)
  · exact (ThreadPool.setPhase_phases ..).trans (if_neg hne)
  · rfl
  · rfl

theorem place_advance_of_ne (requests : Requests.State n σ) (hne : other ≠ thread) :
    place (requests.advance thread) other = place requests other := by
  unfold Requests.State.advance
  split
  · simp only [place, phases_advance_of_ne _ hne]
  · simp only [place, phases_advance_of_ne _ hne, Function.update_of_ne hne]
  · rfl

/-- A thread without a connection goes on outside of `dealMessage` without one. -/
theorem placed_advance (hplaced : Placed (place requests thread) none) :
    Placed (place (requests.advance thread) thread) none ∧
      ∀ entry, place requests thread = (some entry, .begun) →
        place (requests.advance thread) thread = (some entry, .begun) := by
  generalize hplace : place requests thread = found at hplaced
  cases hplaced with
  | idle =>
    obtain ⟨htask, hstage⟩ := Prod.mk.inj hplace
    have hadvance : requests.advance thread =
        { requests with pool := requests.pool.advance thread } := by
      unfold Requests.State.advance
      rw [htask]
    refine ⟨?_, fun entry hbegun ↦ by simp at hbegun⟩
    rw [hadvance, place, hstage]
    cases ((requests.pool.advance thread).phases thread).task? with
    | none => exact .idle
    | some entry => exact .begun entry
  | begun entry =>
    obtain ⟨htask, hstage⟩ := Prod.mk.inj hplace
    have hadvance : requests.advance thread = requests := by
      unfold Requests.State.advance
      rw [htask, hstage]
    rw [hadvance, hplace]
    exact ⟨.begun entry, fun other hother ↦ hother⟩
  | decided entry action =>
    obtain ⟨htask, hstage⟩ := Prod.mk.inj hplace
    have hadvance : requests.advance thread = requests := by
      unfold Requests.State.advance
      rw [htask, hstage]
    rw [hadvance, hplace]
    exact ⟨.decided entry action none, fun other hother ↦ hother⟩
  | ended entry =>
    obtain ⟨htask, hstage⟩ := Prod.mk.inj hplace
    have hphase := ThreadPool.task?_eq_some_iff.mp htask
    have hadvance : place (requests.advance thread) thread = (none, .begun) := by
      unfold Requests.State.advance ThreadPool.State.advance
      rw [htask, hstage]
      simp [place, hphase, ThreadPool.setPhase_phases, ThreadPool.Phase.task?]
    rw [hadvance]
    exact ⟨.idle, fun other hother ↦ by simp at hother⟩

end Places

/-! ### The invariant -/

/-- The numbers of the borrowed connections. -/
def borrowedIds (connections : Wakeups.State) : List ℕ :=
  connections.pool.borrowed.map Pool.Connection.id

/-- The messages and the connections are in order each for itself; the borrowed connections are
those that the threads hold; a thread holds what it may in its place, and who waits for a connection
is at the beginning of a message that needs one. -/
structure Sound (server : MysqlServer σ) (db : σ) (state : State n σ) : Prop where
  requests : Requests.Sound server db state.requests
  accounted : Pool.Accounted state.connections.pool
  held : (borrowedIds state.connections : Multiset ℕ) = Holders.held state.holding
  placed : ∀ thread, Placed (place state.requests thread) (state.holding thread)
  callers : ∀ caller ∈ state.connections.waiters.map Prod.fst, ∃ thread : Fin n,
    (thread : ℕ) = caller ∧ ∃ entry,
      place state.requests thread = (some entry, .begun) ∧ Calls entry.2.msg

section Invariant

variable {server : MysqlServer σ} {db : σ} {config : Pool.Config} {state next : State n σ}
  {thread : Fin n} {entry : ℕ × Task} {dead : ℕ → Bool}

theorem start_sound (n : ℕ) (server : MysqlServer σ) (db : σ) {pool : Pool.State}
    (haccounted : Pool.Accounted pool) (hborrowed : pool.borrowed = []) :
    Sound server db (start n db pool) where
  requests := Requests.start_sound n server db
  accounted := haccounted
  held := by
    rw [borrowedIds, start, Wakeups.start, hborrowed]
    exact (Holders.held_eq_zero fun _ ↦ rfl).symm
  placed _ := .idle
  callers _ hcaller := by cases hcaller

/-- Behind its constructor the pool has lent nothing. -/
theorem construct_borrowed {connect : ℕ → Bool} {now : ℕ → ℤ} {pool : Pool.State}
    (hconstruct : Pool.construct config connect now = some pool) : pool.borrowed = [] := by
  have hinitial : ∀ count, (Pool.initial connect now count).borrowed = [] := by
    intro count
    induction count with
    | zero => rfl
    | succ count ih =>
      rw [Pool.initial]
      split_ifs
      · exact ih
      · exact ih
  unfold Pool.construct at hconstruct
  dsimp only at hconstruct
  split_ifs at hconstruct
  cases hconstruct
  exact hinitial _

/-- The books of the pool stay in order. -/
theorem accounted_of_run {before after : Wakeups.State} {actions : List Wakeups.Action}
    (haccounted : Pool.Accounted before.pool)
    (hrun : run (Wakeups.step config) before actions = .ok after) :
    Pool.Accounted after.pool := by
  have hpreserved : ∀ (connections : Wakeups.State) action next, Pool.Accounted connections.pool →
      Wakeups.step config connections action = .ok next → Pool.Accounted next.pool :=
    fun _ _ _ ↦ Wakeups.step_accounted
  exact run_invariant hpreserved haccounted hrun

/-- One thread comes to another place, with a connection or without one. Who waits has waited
before, and is not that thread unless it stays at the beginning of its message. -/
theorem Sound.of_moved (hsound : Sound server db state) {found : Option (ℕ × Task) × Stage}
    {kept : Option ℕ} (hrequests : Requests.Sound server db next.requests)
    (haccounted : Pool.Accounted next.connections.pool)
    (hplaces : place next.requests = Function.update (place state.requests) thread found)
    (hholding : next.holding = Function.update state.holding thread kept)
    (hplaced : Placed found kept)
    (hheld : (borrowedIds next.connections : Multiset ℕ) = Holders.held next.holding)
    (hwaiters : ∀ caller ∈ next.connections.waiters.map Prod.fst,
      caller ∈ state.connections.waiters.map Prod.fst ∧ (caller = thread → ∀ entry,
        place state.requests thread = (some entry, .begun) → Calls entry.2.msg →
          found = (some entry, .begun))) :
    Sound server db next where
  requests := hrequests
  accounted := haccounted
  held := hheld
  placed other := by
    rw [hplaces, hholding]
    by_cases hsame : other = thread
    · rw [hsame, Function.update_self, Function.update_self]
      exact hplaced
    · rw [Function.update_of_ne hsame, Function.update_of_ne hsame]
      exact hsound.placed other
  callers caller hcaller := by
    obtain ⟨hwaits, hstays⟩ := hwaiters caller hcaller
    obtain ⟨other, rfl, entry, hplace, hcalls⟩ := hsound.callers caller hwaits
    refine ⟨other, rfl, entry, ?_, hcalls⟩
    rw [hplaces]
    by_cases hsame : other = thread
    · rw [hsame] at hplace ⊢
      rw [Function.update_self]
      exact hstays (congrArg Fin.val hsame) entry hplace hcalls
    · rw [Function.update_of_ne hsame, hplace]

/-- A thread takes a step outside of `getOneConnect`. -/
theorem Sound.of_requests (hsound : Sound server db state) {requests : Requests.State n σ}
    {found : Option (ℕ × Task) × Stage} (hrequests : Requests.Sound server db requests)
    (hplaces : place requests = Function.update (place state.requests) thread found)
    (hplaced : Placed found (state.holding thread))
    (hbegun : ∀ entry, place state.requests thread = (some entry, .begun) → Calls entry.2.msg →
      found = (some entry, .begun)) :
    Sound server db { state with requests := requests } := by
  refine hsound.of_moved hrequests hsound.accounted hplaces ?_ hplaced hsound.held
    fun caller hwaits ↦ ⟨hwaits, fun _ ↦ hbegun⟩
  exact (Function.update_eq_self thread state.holding).symm

/-- Nothing changes in `dealMessage`. -/
theorem Sound.of_places (hsound : Sound server db state) {requests : Requests.State n σ}
    (hrequests : Requests.Sound server db requests)
    (hplaces : ∀ other, place requests other = place state.requests other) :
    Sound server db { state with requests := requests } where
  requests := hrequests
  accounted := hsound.accounted
  held := hsound.held
  placed other := hplaces other ▸ hsound.placed other
  callers caller hcaller := by
    simp only [hplaces]
    exact hsound.callers caller hcaller

/-- A step of the pool that hands out no connection and takes none back, and makes nobody wait. -/
theorem Sound.of_connect (hsound : Sound server db state) {action : Wakeups.Action}
    (hstep : state.connect config action = .ok next)
    (hborrowed : next.connections.pool.borrowed = state.connections.pool.borrowed)
    (hwaiters : next.connections.waiters.map Prod.fst = state.connections.waiters.map Prod.fst) :
    Sound server db next := by
  obtain ⟨hpool, hrequests, hholding⟩ := connect_eq_ok hstep
  refine ⟨hrequests ▸ hsound.requests, Wakeups.step_accounted hsound.accounted hpool, ?_,
    fun other ↦ ?_, fun caller hcaller ↦ ?_⟩
  · rw [borrowedIds, hborrowed, hholding]
    exact hsound.held
  · rw [hrequests, hholding]
    exact hsound.placed other
  · rw [hwaiters] at hcaller
    rw [hrequests]
    exact hsound.callers caller hcaller

/-- A thread at the beginning of a message does not hold a connection yet. -/
theorem Sound.free (hsound : Sound server db state)
    (hplace : place state.requests thread = (some entry, .begun)) :
    state.holding thread = none := by
  have hplaced := hsound.placed thread
  rw [hplace] at hplaced
  generalize state.holding thread = holding at hplaced ⊢
  cases hplaced
  rfl

/-- A thread whose message needs a connection looks at the queue. -/
theorem Sound.looked (hsound : Sound server db state)
    (hplace : place state.requests thread = (some entry, .begun)) (hcalls : Calls entry.2.msg)
    {action : Wakeups.Action} (hstep : state.getOneConnect config thread action = .ok next)
    (hlooked : Looked thread dead state.connections next.connections)
    (hrequests : Requests.Sound server db next.requests)
    (haccounted : Pool.Accounted next.connections.pool) : Sound server db next := by
  have hfree := hsound.free hplace
  -- A thread whose call has returned waits no longer.
  have hgone (hwaiters : ∀ other ∈ next.connections.waiters.map Prod.fst,
      other ∈ state.connections.waiters.map Prod.fst ∧ other ≠ thread)
      (found : Option (ℕ × Task) × Stage) : ∀ other ∈ next.connections.waiters.map Prod.fst,
      other ∈ state.connections.waiters.map Prod.fst ∧ (other = thread → ∀ entry,
        place state.requests thread = (some entry, .begun) → Calls entry.2.msg →
          found = (some entry, .begun)) :=
    fun other hother ↦ ⟨(hwaiters other hother).1,
      fun hsame ↦ ((hwaiters other hother).2 hsame).elim⟩
  obtain ⟨-, hcases⟩ := getOneConnect_cases hstep
  generalize hafter : next.connections = after at hlooked hcases
  cases hlooked with
  | waits waiters hempty hwaiters =>
    have hnothing : returned state.connections { state.connections with waiters := waiters } =
        none := by
      simp [returned]
    obtain ⟨hsame, hholding⟩ : next.requests = state.requests ∧
        next.holding = state.holding := by simpa [hnothing] using hcases
    refine ⟨hrequests, haccounted, ?_, fun other ↦ ?_, fun other hother ↦ ?_⟩
    · rw [hafter, hholding]
      exact hsound.held
    · rw [hsame, hholding]
      exact hsound.placed other
    · rw [hafter] at hother
      rw [hsame]
      rcases hwaiters other hother with hbefore | rfl
      · exact hsound.callers other hbefore
      · exact ⟨thread, rfl, entry, hplace, hcalls⟩
  | fails hempty =>
    obtain ⟨hreturned, hwaiters⟩ := fails_spec state.connections thread
    obtain ⟨hprepare, hholding⟩ : state.requests.prepare thread false = .ok next.requests ∧
        next.holding = state.holding := by simpa [hreturned] using hcases
    rcases prepare_of_begun hplace hprepare with ⟨hneeds, -⟩ | ⟨action, -, -, hplaces⟩
    · exact (prepare_false_ne _ hneeds).elim
    · refine hsound.of_moved hrequests haccounted hplaces ?_
        (.decided entry action (state.holding thread)) ?_ (hgone (hafter ▸ hwaiters) _)
      · exact hholding.trans (Function.update_eq_self thread state.holding).symm
      · rw [hafter, hholding]
        exact hsound.held
  | gets hqueue htake =>
    obtain ⟨hreturned, ⟨front, hborrowed⟩, hwaiters⟩ := take_spec hqueue htake
    obtain ⟨hprepare, hholding⟩ : state.requests.prepare thread true = .ok next.requests ∧
        next.holding = Function.update state.holding thread
          (after.pool.borrowed.getLast?.map Pool.Connection.id) := by
      simpa [hreturned] using hcases
    rw [hborrowed, List.getLast?_concat, Option.map_some] at hholding
    rcases prepare_of_begun hplace hprepare with ⟨-, -, hplaces⟩ | ⟨action, hdecided, -⟩
    · refine hsound.of_moved hrequests haccounted hplaces hholding (.connected entry front.id) ?_
        (hgone (hafter ▸ hwaiters) _)
      rw [hafter, hholding, Holders.held_update_some hfree, ← hsound.held, borrowedIds, hborrowed,
        List.map_append, ← Multiset.coe_add, add_comm]
      rfl
    · cases hcalls.symm.trans hdecided

/-- A borrowed connection that comes back is borrowed no longer. -/
theorem borrowedIds_giveBack {connections : Wakeups.State} {id : ℕ}
    (hborrowed : id ∈ borrowedIds connections) (now : ℤ) :
    (id :: borrowedIds (State.giveBack connections id now)).Perm (borrowedIds connections) := by
  obtain ⟨connection, hmem, hid⟩ := List.mem_map.mp hborrowed
  have hexists : ∃ other ∈ connections.pool.borrowed, decide (other.id = id) = true :=
    ⟨connection, hmem, by simpa using hid⟩
  have hlength := List.findIdx_lt_length_of_exists hexists
  have hfound : connections.pool.borrowed[connections.pool.borrowed.findIdx fun other ↦
      other.id = id].id = id := by
    simpa using List.findIdx_getElem (w := hlength)
  have hperm := (List.getElem_cons_eraseIdx_perm hlength).map Pool.Connection.id
  rw [List.map_cons, hfound] at hperm
  unfold borrowedIds State.giveBack Pool.giveBack
  rw [List.getElem?_eq_getElem hlength]
  exact hperm

theorem release_sound (hsound : Sound server db state) (thread : Fin n) (now : ℤ) :
    Sound server db (state.release thread now) := by
  rcases release_cases state thread now with hsame | ⟨id, hholds, hstage, hrelease⟩
  · rw [hsame]
    exact hsound
  · have hborrowed : id ∈ borrowedIds state.connections := by
      rw [← Multiset.mem_coe, hsound.held]
      exact Holders.mem_held_iff.mpr ⟨thread, hholds⟩
    have hperm := borrowedIds_giveBack hborrowed now
    have hplaced : Placed (place state.requests thread) none := by
      have hbefore := hsound.placed thread
      rw [place, hstage] at hbefore ⊢
      generalize (state.requests.pool.phases thread).task? = task at hbefore ⊢
      cases hbefore with
      | ended entry => exact .ended entry none
    rw [hrelease]
    refine hsound.of_moved hsound.requests (Pool.giveBack_accounted _ now hsound.accounted).1
      (Function.update_eq_self thread (place state.requests)).symm rfl hplaced ?_
      fun caller hwaits ↦ ⟨hwaits, fun _ _ hplace _ ↦ hplace⟩
    have hheld := hsound.held
    rw [← Holders.held_update_none hholds, ← Multiset.coe_eq_coe.mpr hperm, ← Multiset.cons_coe]
      at hheld
    exact (Multiset.cons_inj_right id).mp hheld

theorem getOneConnect_of_same {action : Wakeups.Action}
    (hstep : state.getOneConnect config thread action = .ok next)
    (hsame : next.connections = state.connections) : next = state := by
  have hcases := (getOneConnect_cases hstep).2
  have hnothing : returned state.connections state.connections = none := by simp [returned]
  obtain ⟨hrequests, hholding⟩ : next.requests = state.requests ∧
      next.holding = state.holding := by simpa [hsame, hnothing] using hcases
  cases next
  cases hsame
  cases hrequests
  cases hholding
  rfl

/-- A call that waits is one of a thread whose message needs a connection. -/
theorem Sound.waiting (hsound : Sound server db state) {action : Wakeups.Action}
    (hstep : state.getOneConnect config thread action = .ok next)
    (hlooked : next.connections = state.connections ∨
      (thread : ℕ) ∈ state.connections.waiters.map Prod.fst ∧
        Looked thread dead state.connections next.connections)
    (hrequests : Requests.Sound server db next.requests)
    (haccounted : Pool.Accounted next.connections.pool) : Sound server db next := by
  rcases hlooked with hsame | ⟨hwaits, hlooked⟩
  · rw [getOneConnect_of_same hstep hsame]
    exact hsound
  · obtain ⟨other, hother, entry, hplace, hcalls⟩ := hsound.callers thread hwaits
    rw [Fin.val_injective hother] at hplace
    exact hsound.looked hplace hcalls hstep hlooked hrequests haccounted

theorem enter_sound (hsound : Sound server db state)
    (hstep : state.enter config thread dead = .ok next)
    (hrequests : Requests.Sound server db next.requests)
    (haccounted : Pool.Accounted next.connections.pool) : Sound server db next := by
  rcases enter_cases hstep with rfl | ⟨entry, hplace, ⟨hcalls, hcall⟩ | ⟨hneeds, hprepare⟩⟩
  · exact hsound
  · rcases looked_of_call (getOneConnect_cases hcall).1 with hsame | hlooked
    · rw [getOneConnect_of_same hcall hsame]
      exact hsound
    · exact hsound.looked hplace hcalls hcall hlooked hrequests haccounted
  · obtain ⟨hprepared, hconnections, hholding⟩ := prepare_eq_ok hprepare
    rcases prepare_of_begun hplace hprepared with ⟨hnone, -⟩ | ⟨action, -, -, hplaces⟩
    · exact (hneeds hnone).elim
    · have hnext := hsound.of_requests hrequests hplaces (.decided entry action _) fun other hother
          hcalls ↦ by
        rw [hplace] at hother
        cases hother
        exact (hneeds hcalls).elim
      rw [← hconnections, ← hholding] at hnext
      exact hnext

theorem query_sound (hsound : Sound server db state) (accepted : Bool)
    (hrequests : Requests.Sound server db (state.requests.query server thread accepted)) :
    Sound server db { state with requests := state.requests.query server thread accepted } := by
  rcases query_cases server state.requests thread accepted with hsame | ⟨entry, hplace⟩
  · rw [hsame]
    exact hsound
  · refine hsound.of_requests hrequests (place_query server accepted hplace) (.decided entry _ _)
      fun other hother ↦ ?_
    rw [hplace] at hother
    simp at hother

theorem send_sound (hsound : Sound server db state)
    (hrequests : Requests.Sound server db (state.requests.send thread)) :
    Sound server db { state with requests := state.requests.send thread } := by
  rcases send_cases state.requests thread with hsame | ⟨entry, action, hplace⟩
  · rw [hsame]
    exact hsound
  · refine hsound.of_requests hrequests (place_send hplace) (.ended entry _) fun other hother ↦ ?_
    rw [hplace] at hother
    simp at hother

theorem advance_sound (hsound : Sound server db state)
    (hrequests : Requests.Sound server db (state.advance thread).requests) :
    Sound server db (state.advance thread) := by
  unfold State.advance at hrequests ⊢
  split at hrequests
  · rename_i hfree
    have hplaced := hsound.placed thread
    rw [hfree] at hplaced
    obtain ⟨hadvanced, hbegun⟩ := placed_advance hplaced
    exact hsound.of_requests hrequests
      (Function.eq_update_iff.mpr ⟨rfl, fun _ hne ↦ place_advance_of_ne _ hne⟩)
      (hfree.symm ▸ hadvanced) fun entry hplace _ ↦ hbegun entry hplace
  · exact hsound

theorem scan_borrowed {pool scanned : Pool.State} {clock : ℕ → ℤ}
    (hscan : Pool.scannerConnectionTask config dead clock pool = .ok scanned) :
    scanned.borrowed = pool.borrowed :=
  (Wakeups.reclaim_borrowed config clock _ 0 _ scanned hscan).trans
    (Pool.evictDead_spec dead pool.queue pool rfl).2.1

theorem produce_sizes (config : Pool.Config) (connections : Wakeups.State) (now : ℤ) :
    (connections.produce config now).pool.borrowed = connections.pool.borrowed ∧
      (connections.produce config now).waiters.map Prod.fst =
        connections.waiters.map Prod.fst := by
  unfold Wakeups.State.produce
  split_ifs
  · exact ⟨rfl, rfl⟩
  · refine ⟨(Sizing.produceConnectionTask_sizes config now connections.pool).2, ?_⟩
    simp [Wakeups.State.notifyAll]
  · exact ⟨rfl, rfl⟩

theorem step_sound {move : Move n} (hthreads : 0 < n) (hsound : Sound server db state)
    (hstep : step server config state move = .ok next) : Sound server db next := by
  have hrequests : Requests.Sound server db next.requests := by
    obtain ⟨moves, hmoves⟩ := step_requests hstep
    exact run_invariant (fun _ _ _ hbefore ↦ Requests.step_sound hthreads hbefore)
      hsound.requests hmoves
  have haccounted : Pool.Accounted next.connections.pool := by
    obtain ⟨actions, hactions⟩ := step_connections hstep
    exact accounted_of_run hsound.accounted hactions
  cases move with
  | onStringMessage task chosen =>
    cases hstep
    refine hsound.of_places hrequests fun other ↦ ?_
    exact Prod.ext (ThreadPool.task?_run state.requests.pool _ chosen other) rfl
  | enter thread dead => exact enter_sound hsound hstep hrequests haccounted
  | resume thread dead =>
    exact hsound.waiting hstep (looked_of_resume (getOneConnect_cases hstep).1) hrequests
      haccounted
  | timeout thread dead =>
    exact hsound.waiting hstep (looked_of_timeout (getOneConnect_cases hstep).1) hrequests
      haccounted
  | query thread accepted =>
    cases hstep
    exact query_sound hsound accepted hrequests
  | send thread =>
    cases hstep
    exact send_sound hsound hrequests
  | release thread now =>
    cases hstep
    exact release_sound hsound thread now
  | advance thread =>
    cases hstep
    exact advance_sound hsound hrequests
  | wake thread =>
    cases hstep
    refine hsound.of_places hrequests fun other ↦ ?_
    exact Prod.ext (ThreadPool.task?_wake state.requests.pool thread other) rfl
  | stop =>
    cases hstep
    refine hsound.of_places hrequests fun other ↦ ?_
    exact Prod.ext (ThreadPool.task?_stop state.requests.pool other) rfl
  | produce now =>
    have hconnect : state.connect config (.produce now) = .ok next := hstep
    have hpool := Except.ok.inj (connect_eq_ok hconnect).1
    obtain ⟨hborrowed, hwaiters⟩ := produce_sizes config state.connections now
    exact hsound.of_connect hconnect (hpool ▸ hborrowed) (hpool ▸ hwaiters)
  | scan dead clock =>
    have hconnect : state.connect config (.scan dead clock) = .ok next := hstep
    obtain ⟨hscan, hpool⟩ := Wakeups.scan_eq_ok (connect_eq_ok hconnect).1
    exact hsound.of_connect hconnect (scan_borrowed hscan) (hpool ▸ rfl)
  | wakeProducer =>
    have hconnect : state.connect config .wakeProducer = .ok next := hstep
    have hpool := Except.ok.inj (connect_eq_ok hconnect).1
    exact hsound.of_connect hconnect (hpool ▸ rfl) (hpool ▸ rfl)
  | wakeCaller thread =>
    have hconnect : state.connect config (.wakeCaller thread) = .ok next := hstep
    have hpool := Except.ok.inj (connect_eq_ok hconnect).1
    refine hsound.of_connect hconnect (hpool ▸ rfl) ?_
    rw [← hpool, List.map_map]
    refine List.map_congr_left fun waiter _ ↦ ?_
    show (if waiter.1 = (thread : ℕ) then ((thread : ℕ), true) else waiter).1 = waiter.1
    split_ifs with hsame
    · exact hsame.symm
    · rfl

/-- When no thread can go on, no connection is borrowed, and nobody waits for one. -/
theorem Sound.of_quiet (hsound : Sound server db state)
    (hrunning : state.requests.pool.running = true)
    (hquiet : ∀ thread, ¬ state.requests.pool.CanStep thread) :
    state.connections.pool.borrowed = [] ∧ state.connections.waiters = [] := by
  obtain ⟨hwaiting, -, -⟩ := hsound.requests.pool.quiescent hrunning hquiet
  have hidle : ∀ thread, (state.requests.pool.phases thread).task? = none := by
    intro thread
    rw [hwaiting thread]
    rfl
  have hnone : ∀ thread, state.holding thread = none := by
    intro thread
    have hplaced := hsound.placed thread
    rw [place, hidle thread] at hplaced
    generalize state.requests.stages thread = stage at hplaced
    generalize state.holding thread = holding at hplaced ⊢
    cases hplaced
    rfl
  constructor
  · have hheld := hsound.held
    rw [Holders.held_eq_zero hnone, Multiset.coe_eq_zero] at hheld
    exact List.map_eq_nil_iff.mp hheld
  · refine List.eq_nil_iff_forall_not_mem.mpr fun waiter hwaits ↦ ?_
    obtain ⟨thread, -, entry, hplace, -⟩ :=
      hsound.callers waiter.1 (List.mem_map_of_mem hwaits)
    rw [place, hidle thread] at hplace
    simp at hplace

end Invariant

/-! ### A server with one thread and one connection -/

section Alone

variable (server : MysqlServer σ) (db : σ) {task : Task}

/-- A message arrives, and the thread comes to it. -/
def arrives (thread : Fin n) (task : Task) : List (Move n) :=
  [.onStringMessage task 0, .advance thread, .advance thread, .enter thread fun _ ↦ false]

/-- The thread executes the statement of its message, replies, gives its connection back, and finds
no other message. -/
def settles (thread : Fin n) : List (Move n) :=
  [.query thread true, .send thread, .release thread 5, .advance thread, .advance thread,
    .advance thread]

/-- The thread of the server with the connection for its first message. -/
def connected (task : Task) : State 1 σ where
  requests := ⟨⟨true, [], fun _ ↦ .performing (0, task), [(0, task)], [(0, task)], []⟩,
    fun _ ↦ .connected, db, [.invoke 0 task], []⟩
  connections := ⟨⟨[], [⟨0, 0⟩], 1, 1, []⟩, false, [], [0], []⟩
  holding _ := some 0

theorem run_arrives (hcalls : Calls task.msg) :
    run (step server Pool.smallConfig) (start 1 db Pool.smallPool) (arrives 0 task) =
      .ok (connected db task) := by
  have hupdate {α : Type} (f : Fin 1 → α) (value : α) : Function.update f 0 value = fun _ ↦ value :=
    Function.update_eq_const_of_subsingleton 0 value f
  have hthreads : List.finRange 1 = [0] := rfl
  have hprepare : Requests.prepare true task.msg = .ok none := hcalls
  simp [arrives, start, connected, run, step, hupdate, hthreads, hcalls, hprepare,
    Requests.start, ThreadPool.start, Requests.State.onStringMessage, Requests.State.advance,
    Requests.State.prepare, ThreadPool.State.run, ThreadPool.State.push, ThreadPool.State.notify,
    ThreadPool.State.notified, ThreadPool.Phase.isWaiting, ThreadPool.Phase.task?,
    ThreadPool.State.advance, ThreadPool.State.take, ThreadPool.State.setPhase, State.advance,
    State.enter, State.getOneConnect, State.prepare, place, returned, Wakeups.step,
    Wakeups.State.call, Wakeups.State.look, Wakeups.State.take, Wakeups.State.leave,
    Wakeups.State.notifyAll, Wakeups.start, Pool.getOneConnect, Pool.evictDead, Pool.smallPool]

/-- The server behind its first message. -/
def settled (task : Task) : State 1 σ where
  requests := ⟨⟨true, [], fun _ ↦ .waiting, [(0, task)], [(0, task)], [(0, task)]⟩,
    fun _ ↦ .begun, (Requests.query server true db task.msg).1,
    [.invoke 0 task, .answer 0 (Requests.query server true db task.msg).2],
    [⟨0, task, (Requests.query server true db task.msg).2⟩]⟩
  connections := ⟨⟨[⟨0, 5⟩], [], 1, 1, []⟩, false, [], [0], []⟩
  holding _ := none

theorem run_settles (hcalls : Calls task.msg) :
    run (step server Pool.smallConfig) (start 1 db Pool.smallPool) (arrives 0 task ++ settles 0) =
      .ok (settled server db task) := by
  have hupdate {α : Type} (f : Fin 1 → α) (value : α) : Function.update f 0 value = fun _ ↦ value :=
    Function.update_eq_const_of_subsingleton 0 value f
  refine run_append_eq_ok_iff.mpr ⟨_, run_arrives server db hcalls, ?_⟩
  simp [settles, connected, settled, run, step, hupdate, Requests.State.query,
    Requests.State.effect, Requests.State.send, Requests.State.advance, ThreadPool.Phase.task?,
    ThreadPool.State.advance, ThreadPool.State.take, ThreadPool.State.setPhase, State.release,
    State.advance, State.giveBack, Pool.giveBack, List.findIdx_cons]

/-- The first message uploads a document. -/
theorem calls_annual : Calls (annualUpload [1]).msg :=
  Requests.prepare_of_uploadedBy (Requests.annualUpload_uploads [1])

end Alone

/-! ### Whole runs -/

section Runs

variable {server : MysqlServer σ} {db : σ} {config : Pool.Config} {connect : ℕ → Bool}
  {now : ℕ → ℤ} {pool : Pool.State} {moves : List (Move n)} {final : State n σ}

theorem reached_sound (hthreads : 0 < n)
    (hconstruct : Pool.construct config connect now = some pool)
    (hrun : run (step server config) (start n db pool) moves = .ok final) :
    Sound server db final :=
  run_invariant (fun _ _ _ hsound hstep ↦ step_sound hthreads hsound hstep)
    (start_sound n server db (Pool.construct_sound hconstruct).toAccounted
      (construct_borrowed hconstruct)) hrun

/-- As far as it concerns the messages, the server does what `Requests` says. -/
theorem refines_requests (hrun : run (step server config) (start n db pool) moves = .ok final) :
    ∃ above, run (Requests.step server) (Requests.start n db) above = .ok final.requests := by
  have hrefined : ∀ (state : State n σ) move next, step server config state move = .ok next →
      ∃ above, run (Requests.step server) state.requests above = .ok next.requests :=
    fun _ _ _ ↦ step_requests
  exact run_refines hrefined hrun

/-- As far as it concerns the connections, it does what `Wakeups` says. -/
theorem refines_wakeups (hrun : run (step server config) (start n db pool) moves = .ok final) :
    ∃ above, run (Wakeups.step config) (Wakeups.start pool) above = .ok final.connections := by
  have hrefined : ∀ (state : State n σ) move next, step server config state move = .ok next →
      ∃ above, run (Wakeups.step config) state.connections above = .ok next.connections :=
    fun _ _ _ ↦ step_connections
  exact run_refines hrefined hrun

/-- No connection is with two threads; one that a thread has is neither queued nor closed; and a
thread that comes to its statement has one. -/
theorem exclusive (hthreads : 0 < n) (hconstruct : Pool.construct config connect now = some pool)
    (hrun : run (step server config) (start n db pool) moves = .ok final) :
    (∀ thread id, final.holding thread = some id →
      (∀ other, final.holding other = some id → other = thread) ∧
        id ∉ final.connections.pool.queue.map Pool.Connection.id ∧
        id ∉ final.connections.pool.closed) ∧
    ∀ thread, final.requests.stages thread = .connected → (final.holding thread).isSome := by
  have hsound := reached_sound hthreads hconstruct hrun
  have hdistinct := hsound.accounted.distinct
  rw [Pool.State.ids, List.map_append] at hdistinct
  have hborrowed : ∀ {thread id}, final.holding thread = some id →
      id ∈ borrowedIds final.connections := by
    intro thread id hholds
    rw [← Multiset.mem_coe, hsound.held]
    exact Holders.mem_held_iff.mpr ⟨thread, hholds⟩
  refine ⟨fun thread id hholds ↦ ⟨fun other hother ↦ ?_, fun hqueued ↦ ?_, ?_⟩,
    fun thread hstage ↦ ?_⟩
  · have hnodup := (List.nodup_append.mp hdistinct).2.1
    rw [← Multiset.coe_nodup] at hnodup
    exact Holders.eq_of_nodup (hsound.held ▸ hnodup) hholds hother
  · exact List.disjoint_of_nodup_append hdistinct hqueued (hborrowed hholds)
  · refine hsound.accounted.not_closed id ?_
    rw [Pool.State.ids, List.map_append]
    exact List.mem_append_right _ (hborrowed hholds)
  · have hplaced := hsound.placed thread
    rw [place, hstage] at hplaced
    generalize (final.requests.pool.phases thread).task? = task at hplaced
    generalize final.holding thread = holding at hplaced ⊢
    cases hplaced
    rfl

/-- The thread has the connection for its first message. -/
theorem exclusive_annual : ∃ final, run (step .ofTable Pool.smallConfig)
      (start 1 (fun _ ↦ none) Pool.smallPool) (arrives 0 (annualUpload [1])) = .ok final ∧
    final.holding 0 = some 0 ∧ 0 ∉ final.connections.pool.queue.map Pool.Connection.id ∧
    0 ∉ final.connections.pool.closed := by
  have hrun := run_arrives .ofTable (fun _ ↦ none) calls_annual
  obtain ⟨-, hqueue, hclosed⟩ := (exclusive Nat.one_pos Pool.construct_smallPool hrun).1 0 0 rfl
  exact ⟨_, hrun, rfl, hqueue, hclosed⟩

/-- When no thread can go on, all connections have come back, and nobody waits for one. -/
theorem given_back (hthreads : 0 < n) (hconstruct : Pool.construct config connect now = some pool)
    (hrun : run (step server config) (start n db pool) moves = .ok final)
    (hrunning : final.requests.pool.running = true)
    (hquiet : ∀ thread, ¬ final.requests.pool.CanStep thread) :
    final.connections.pool.borrowed = [] ∧ final.connections.waiters = [] ∧
      final.connections.pool.currentCount = final.connections.pool.queue.length := by
  have hsound := reached_sound hthreads hconstruct hrun
  obtain ⟨hborrowed, hwaiters⟩ := hsound.of_quiet hrunning hquiet
  refine ⟨hborrowed, hwaiters, ?_⟩
  rw [hsound.accounted.count, hborrowed]
  simp

/-- The thread has dealt with its first message. -/
theorem given_back_annual : ∃ final, run (step .ofTable Pool.smallConfig)
      (start 1 (fun _ ↦ none) Pool.smallPool) (arrives 0 (annualUpload [1]) ++ settles 0) =
        .ok final ∧
    final.connections.pool.borrowed = [] ∧ final.connections.waiters = [] ∧
      final.connections.pool.currentCount = final.connections.pool.queue.length := by
  have hrun := run_settles .ofTable (fun _ ↦ none) calls_annual
  exact ⟨_, hrun, given_back Nat.one_pos Pool.construct_smallPool hrun rfl fun _ hcan ↦ hcan⟩

end Runs

end TradeServers.LogTimeServer.Serving
