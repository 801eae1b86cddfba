import TradeServers.Chat.Server
import TradeServers.Library.Simulation
import TradeServers.ThreadPool.Order

/-!
# The echo server

`comServer` sends every message back to where it came from. The loop of a connection reads the
message and hands it to the thread pool; the thread that gets it frames it and queues the bytes in
the loop of the connection, which writes them. Five threads do this at a time, so the replies of one
client can overtake each other.

- `pool_simulates`: the pool in a run of the server is a run of the thread pool.
- `echo_never_aborts`: no message ends the server.
- `echoes_in_window`: a client gets its messages back unaltered, each at most once, and none
  overtakes more than four others.
- `echoes_complete`: when the server has come to rest, a client that is still connected has got all
  of its messages back.
-/

set_option autoImplicit false
set_option relaxedAutoImplicit false

namespace TradeServers.ComServer

open Execution LengthHeader Overtaking
open Chat (PrependBuffer ConnState Message layout wire send receive sentBy)

variable {β : Type} {n : ℕ}

/-- The threads that `initThreadPool` starts. -/
abbrev threadNum : ℕ := 5

/-- The server's side of a connection. The chunks that arrived on it and the messages that `send`
accepted for it are kept with it. -/
structure Peer (β : Type) where
  state : ConnState
  input : Connection β
  output : Bytes
  chunks : List Bytes
  sent : List Bytes

/-- An event loop: the messages it is calling `onStringMessage` for, the connection that `onMessage`
shuts down behind them, and the bytes that were sent from other threads. -/
structure Loop where
  handling : List (ℕ × Bytes)
  closing : Option ℕ
  pending : List (ℕ × Bytes)

structure State (n : ℕ) (β : Type) where
  loops : Fin n → Loop
  peers : ℕ → Peer β
  pool : ThreadPool.State threadNum (ℕ × Bytes)

def State.setLoop (state : State n β) (loop : Fin n) (value : Loop) : State n β :=
  { state with loops := Function.update state.loops loop value }

def State.setPeer (state : State n β) (conn : ℕ) (value : Peer β) : State n β :=
  { state with peers := Function.update state.peers conn value }

/-- A loop that is not in a call of `onMessage`. -/
def Loop.Idle (loop : Loop) : Prop := loop.handling = [] ∧ loop.closing = none

instance (loop : Loop) : Decidable loop.Idle := inferInstanceAs (Decidable (_ ∧ _))

def Peer.Member (peer : Peer β) : Prop :=
  peer.state = .connected ∨ peer.state = .disconnecting

instance (peer : Peer β) : Decidable peer.Member := inferInstanceAs (Decidable (_ ∨ _))

section Server

variable (net : PrependBuffer β)

def Peer.fresh : Peer β := ⟨.connecting, .start net.toNetBuffer, [], [], []⟩

/-- The server behind `initThreadPool` and `start`. -/
def start (n : ℕ) : State n β :=
  ⟨fun _ ↦ ⟨[], none, []⟩, fun _ ↦ .fresh net, ThreadPool.start threadNum (ℕ × Bytes)⟩

variable (home : ℕ → Fin n)

/-- `onConnection` for a connection that came up. Every loop inserts its connections into
`connections_` and erases them there, and no lock guards this set. Nothing reads it, so it is left
out: that these accesses do no harm is an assumption. -/
def State.up (state : State n β) (conn : ℕ) : State n β :=
  if (state.loops (home conn)).Idle ∧ (state.peers conn).state = .connecting then
    state.setPeer conn { state.peers conn with state := .connected }
  else state

/-- `onConnection` for a connection that went down, with the same assumption. -/
def State.down (state : State n β) (conn : ℕ) : State n β :=
  if (state.loops (home conn)).Idle ∧ (state.peers conn).Member then
    state.setPeer conn { state.peers conn with state := .disconnected }
  else state

/-- Bytes arrive on a connection, and `onMessage` cuts them into messages. -/
def State.read (state : State n β) (conn : ℕ) (chunk : Bytes) : State n β :=
  let loop := state.loops (home conn)
  let peer := state.peers conn
  let result := (peer.input.arrive net.toNetBuffer chunk).onMessage net.toNetBuffer layout
  if loop.Idle ∧ peer.Member then
    (state.setLoop (home conn) { loop with
      handling := result.1.map (Prod.mk conn)
      closing := if peer.input.shutdowns < result.2.shutdowns then some conn else none }).setPeer
        conn { peer with input := result.2, chunks := peer.chunks ++ [chunk] }
  else state

/-- `TcpConnection::shutdown`. -/
def Peer.shutdown (peer : Peer β) : Peer β :=
  if peer.state = .connected then { peer with state := .disconnecting } else peer

/-- The calls in `onMessage`: `onStringMessage` hands each message to the thread pool, and a length
that was refused shuts the connection down behind the last one. -/
def State.callback (state : State n β) (loop : Fin n) (chosen : ℕ) : State n β :=
  let value := state.loops loop
  match value.handling with
  | entry :: rest =>
    { state.setLoop loop { value with handling := rest } with
      pool := state.pool.run entry chosen }
  | [] =>
    match value.closing with
    | some conn =>
      (state.setLoop loop { value with closing := none }).setPeer conn (state.peers conn).shutdown
    | none => state

/-- `TcpConnection::send` in a thread of the pool: the bytes are queued in the loop of the
connection, unless it is closing. -/
def State.queueSend (state : State n β) (conn : ℕ) (message bytes : Bytes) : State n β :=
  let loop := state.loops (home conn)
  let peer := state.peers conn
  if peer.state = .connected then
    (state.setLoop (home conn) { loop with pending := loop.pending ++ [(conn, bytes)] }).setPeer
      conn { peer with sent := peer.sent ++ [message] }
  else state

/-- `comServer::sendMessage`. -/
def State.sendMessage (state : State n β) (conn : ℕ) (message : Bytes) :
    Except ThreadPool.Aborted (State n β) :=
  (send net message).elim (.error .uncaught) fun buf ↦
    .ok (state.queueSend home conn message (net.content buf))

/-- A thread of the pool goes on; its task is `sendMessage`. -/
def State.advance (state : State n β) (thread : Fin threadNum) :
    Except ThreadPool.Aborted (State n β) :=
  match (state.pool.phases thread).task? with
  | some task =>
    (state.sendMessage net home task.1 task.2).map fun next ↦
      { next with pool := state.pool.advance thread }
  | none => .ok { state with pool := state.pool.advance thread }

/-- `TcpConnection::sendInLoop` for the first bytes that are queued in a loop. -/
def State.sendInLoop (state : State n β) (loop : Fin n) : State n β :=
  let value := state.loops loop
  match value.pending with
  | [] => state
  | (conn, bytes) :: rest =>
    let peer := state.peers conn
    if value.Idle then
      (state.setLoop loop { value with pending := rest }).setPeer conn
        (if peer.state = .disconnected then peer else { peer with output := peer.output ++ bytes })
    else state

/-- What can happen in the server. -/
inductive Action (n : ℕ)
  | up (conn : ℕ)
  | down (conn : ℕ)
  | read (conn : ℕ) (chunk : Bytes)
  | callback (loop : Fin n) (chosen : ℕ)
  | advance (thread : Fin threadNum)
  | wake (thread : Fin threadNum)
  | sendInLoop (loop : Fin n)

def step (state : State n β) : Action n → Except ThreadPool.Aborted (State n β)
  | .up conn => .ok (state.up home conn)
  | .down conn => .ok (state.down home conn)
  | .read conn chunk => .ok (state.read net home conn chunk)
  | .callback loop chosen => .ok (state.callback loop chosen)
  | .advance thread => state.advance net home thread
  | .wake thread => .ok { state with pool := state.pool.wake thread }
  | .sendInLoop loop => .ok (state.sendInLoop loop)

/-- What the thread pool sees of a step. -/
def poolEvent (state : State n β) : Action n → Option (ThreadPool.Action threadNum (ℕ × Bytes))
  | .callback loop chosen => (state.loops loop).handling.head?.map fun entry ↦ .run entry chosen
  | .advance thread => some (.advance thread)
  | .wake thread => some (.wake thread)
  | _ => none

/-! ### What holds in every state -/

/-- What concerns one connection: the messages that wait in its loop, the bytes that were sent to
it, and the tasks of the pool that are about it. -/
structure View (β : Type) where
  peer : Peer β
  handling : List Bytes
  pending : List Bytes
  accepted : List Bytes
  executed : List Bytes

def State.view (state : State n β) (conn : ℕ) : View β where
  peer := state.peers conn
  handling := sentBy conn (state.loops (home conn)).handling
  pending := sentBy conn (state.loops (home conn)).pending
  accepted := sentBy conn state.pool.accepted
  executed := sentBy conn state.pool.executed

/-- What arrived was handed to the pool or waits in the loop. What the pool executed was sent while
the connection was open, and what was sent is written or queued while it is not down. -/
structure ViewSound (view : View β) : Prop where
  received : receive net (.start net.toNetBuffer) view.peer.chunks =
    (view.accepted ++ view.handling, view.peer.input)
  sent : view.peer.sent <+: view.executed
  connected : view.peer.state = .connected → view.peer.sent = view.executed
  fresh : view.peer.state = .connecting → view.peer = .fresh net
  written : ∃ written waiting : List Message,
    (written ++ waiting).map Message.bytes = view.peer.sent ∧ view.peer.output = wire written ∧
      (view.peer.state ≠ .disconnected → view.pending = waiting.map fun message ↦ wire [message])

structure Sound (state : State n β) : Prop where
  pool : ThreadPool.Sound state.pool
  running : state.pool.running = true
  short : ∀ entry ∈ state.pool.accepted, entry.2.length ≤ 65536
  handled : ∀ loop, ∀ entry ∈ (state.loops loop).handling,
    home entry.1 = loop ∧ entry.2.length ≤ 65536
  queued : ∀ loop, ∀ entry ∈ (state.loops loop).pending, home entry.1 = loop
  closed : ∀ loop conn, (state.loops loop).closing = some conn → home conn = loop
  views : ∀ conn, ViewSound net (state.view home conn)

variable {net home} {state next : State n β} {view : View β}

/-! ### One connection -/

theorem ViewSound.up (hview : ViewSound net view) (hconnecting : view.peer.state = .connecting)
    (hexecuted : view.executed.Subperm view.accepted) :
    ViewSound net { view with peer := { view.peer with state := .connected } } := by
  have hfresh := hview.fresh hconnecting
  have hreceived := hview.received
  rw [hfresh] at hreceived
  have hnothing : view.accepted ++ view.handling = [] := (congrArg Prod.fst hreceived).symm
  have hexecutes : view.executed = [] := by
    rw [(List.append_eq_nil_iff.mp hnothing).1, List.subperm_nil] at hexecuted
    exact hexecuted
  refine ⟨hview.received, hview.sent, fun _ ↦ ?_, fun hstate ↦ (nomatch hstate), ?_⟩
  · simp only [hfresh, Peer.fresh, hexecutes]
  · obtain ⟨written, waiting, hsent, houtput, hpending⟩ := hview.written
    exact ⟨written, waiting, hsent, houtput, fun _ ↦ hpending (by simp [hconnecting])⟩

theorem ViewSound.down (hview : ViewSound net view) :
    ViewSound net { view with peer := { view.peer with state := .disconnected } } := by
  refine ⟨hview.received, hview.sent, fun hstate ↦ (nomatch hstate),
    fun hstate ↦ (nomatch hstate), ?_⟩
  obtain ⟨written, waiting, hsent, houtput, -⟩ := hview.written
  exact ⟨written, waiting, hsent, houtput, fun hstate ↦ (hstate rfl).elim⟩

theorem ViewSound.shutdown (hview : ViewSound net view) :
    ViewSound net { view with peer := view.peer.shutdown } := by
  unfold Peer.shutdown
  split_ifs with hconnected
  · refine ⟨hview.received, hview.sent, fun hstate ↦ (nomatch hstate),
      fun hstate ↦ (nomatch hstate), ?_⟩
    obtain ⟨written, waiting, hsent, houtput, hpending⟩ := hview.written
    exact ⟨written, waiting, hsent, houtput, fun _ ↦ hpending (by simp [hconnected])⟩
  · exact hview

/-- A chunk arrives while no message waits in the loop. -/
theorem ViewSound.read (hview : ViewSound net view) (hmember : view.peer.Member)
    (hidle : view.handling = []) (chunk : Bytes) :
    let result := (view.peer.input.arrive net.toNetBuffer chunk).onMessage net.toNetBuffer layout
    ViewSound net { view with
      peer := { view.peer with input := result.2, chunks := view.peer.chunks ++ [chunk] }
      handling := result.1 } := by
  intro result
  have hreceived := Chat.receive_concat net (.start net.toNetBuffer) view.peer.chunks chunk
  rw [hview.received, hidle, List.append_nil] at hreceived
  refine ⟨hreceived, hview.sent, hview.connected, fun hstate ↦ ?_, hview.written⟩
  obtain hopen | hclosing := hmember
  · exact nomatch hopen.symm.trans hstate
  · exact nomatch hclosing.symm.trans hstate

theorem ViewSound.accept (hview : ViewSound net view) {message : Bytes} {rest : List Bytes}
    (hhandling : view.handling = message :: rest) :
    ViewSound net { view with handling := rest, accepted := view.accepted ++ [message] } := by
  refine ⟨?_, hview.sent, hview.connected, hview.fresh, hview.written⟩
  rw [hview.received, hhandling, List.append_assoc, List.singleton_append]

/-- A message that is executed is queued for the connection if that is open. -/
theorem ViewSound.execute_open (hview : ViewSound net view)
    (hconnected : view.peer.state = .connected) (message : Message) :
    ViewSound net { view with
      peer := { view.peer with sent := view.peer.sent ++ [message.bytes] }
      pending := view.pending ++ [wire [message]]
      executed := view.executed ++ [message.bytes] } := by
  refine ⟨hview.received, ?_, fun _ ↦ ?_, fun hstate ↦ ?_, ?_⟩
  · rw [hview.connected hconnected]
  · rw [hview.connected hconnected]
  · exact nomatch hconnected.symm.trans hstate
  · obtain ⟨written, waiting, hsent, houtput, hpending⟩ := hview.written
    refine ⟨written, waiting ++ [message], ?_, houtput, fun hstate ↦ ?_⟩
    · rw [← List.append_assoc, List.map_append, hsent]
      rfl
    · rw [hpending hstate, List.map_append]
      rfl

/-- A message for a connection that is closing is dropped. -/
theorem ViewSound.execute_closed (hview : ViewSound net view)
    (hclosing : view.peer.state ≠ .connected) (message : Bytes) :
    ViewSound net { view with executed := view.executed ++ [message] } :=
  ⟨hview.received, hview.sent.trans (List.prefix_append _ _),
    fun hstate ↦ (hclosing hstate).elim, hview.fresh, hview.written⟩

/-- The first bytes that are queued for a connection are written, unless it is down. -/
theorem ViewSound.write (hview : ViewSound net view) {bytes : Bytes} {rest : List Bytes}
    (hqueued : view.pending = bytes :: rest) :
    ViewSound net { view with
      peer := if view.peer.state = .disconnected then view.peer
        else { view.peer with output := view.peer.output ++ bytes }
      pending := rest } := by
  obtain ⟨written, waiting, hsent, houtput, hpending⟩ := hview.written
  split_ifs with hdown
  · exact ⟨hview.received, hview.sent, hview.connected, hview.fresh, written, waiting, hsent,
      houtput, fun hstate ↦ (hstate hdown).elim⟩
  · have hwaiting := hpending hdown
    rw [hqueued] at hwaiting
    cases waiting with
    | nil => cases hwaiting
    | cons first waiting =>
      obtain ⟨rfl, rfl⟩ := List.cons.inj hwaiting
      refine ⟨hview.received, hview.sent, hview.connected, fun hstate ↦ ?_,
        written ++ [first], waiting, ?_, ?_, fun _ ↦ rfl⟩
      · have hfresh := hview.fresh hstate
        rw [hfresh] at hsent
        simp [Peer.fresh] at hsent
      · rw [← hsent, List.append_assoc, List.singleton_append]
      · rw [Chat.wire_append, houtput]

/-! ### The steps keep the server sound -/

theorem start_sound (n : ℕ) (home : ℕ → Fin n) : Sound net home (start net n) where
  pool := ThreadPool.start_sound threadNum _
  running := rfl
  short := fun _ hentry ↦ nomatch hentry
  handled := fun _ _ hentry ↦ nomatch hentry
  queued := fun _ _ hentry ↦ nomatch hentry
  closed := fun _ _ hclosing ↦ nomatch hclosing
  views := fun _ ↦ ⟨rfl, List.nil_prefix, fun hstate ↦ (nomatch hstate), fun _ ↦ rfl, [], [], rfl,
    rfl, fun _ ↦ rfl⟩

/-- A step about one connection changes that connection, its loop and tasks of its own. -/
theorem Sound.update (hsound : Sound net home state) {conn : ℕ} {value : Loop}
    (hloops : next.loops = Function.update state.loops (home conn) value)
    (hpeers : ∀ other, other ≠ conn → next.peers other = state.peers other)
    (hpool : ThreadPool.Sound next.pool) (hrunning : next.pool.running = true)
    (hshort : ∀ entry ∈ next.pool.accepted, entry.2.length ≤ 65536)
    (hhandled : ∀ entry ∈ value.handling, home entry.1 = home conn ∧ entry.2.length ≤ 65536)
    (hqueued : ∀ entry ∈ value.pending, home entry.1 = home conn)
    (hclosed : ∀ other, value.closing = some other → home other = home conn)
    (hothers : ∀ other, other ≠ conn → home other = home conn →
      sentBy other value.handling = sentBy other (state.loops (home conn)).handling ∧
        sentBy other value.pending = sentBy other (state.loops (home conn)).pending)
    (htasks : ∀ other, other ≠ conn →
      sentBy other next.pool.accepted = sentBy other state.pool.accepted ∧
        sentBy other next.pool.executed = sentBy other state.pool.executed)
    (hview : ViewSound net (next.view home conn)) : Sound net home next := by
  have hloop : ∀ loop, next.loops loop = if loop = home conn then value else state.loops loop := by
    intro loop
    rw [hloops]
    exact Function.update_apply _ _ _ _
  refine ⟨hpool, hrunning, hshort, fun loop ↦ ?_, fun loop ↦ ?_, fun loop ↦ ?_, fun other ↦ ?_⟩
  · rw [hloop]
    split_ifs with hhome
    · rwa [hhome]
    · exact hsound.handled loop
  · rw [hloop]
    split_ifs with hhome
    · rwa [hhome]
    · exact hsound.queued loop
  · rw [hloop]
    split_ifs with hhome
    · rwa [hhome]
    · exact hsound.closed loop
  · by_cases hsame : other = conn
    · rwa [hsame]
    have hkept : next.view home other = state.view home other := by
      unfold State.view
      rw [hpeers other hsame, (htasks other hsame).1, (htasks other hsame).2, hloop]
      split_ifs with hhome
      · rw [(hothers other hsame hhome).1, (hothers other hsame hhome).2, hhome]
      · rfl
    rw [hkept]
    exact hsound.views other

/-- The same for a step that leaves the pool alone. -/
theorem Sound.update_of_pool (hsound : Sound net home state) {conn : ℕ} {value : Loop}
    {peer : Peer β}
    (hhandled : ∀ entry ∈ value.handling, home entry.1 = home conn ∧ entry.2.length ≤ 65536)
    (hqueued : ∀ entry ∈ value.pending, home entry.1 = home conn)
    (hclosed : ∀ other, value.closing = some other → home other = home conn)
    (hothers : ∀ other, other ≠ conn → home other = home conn →
      sentBy other value.handling = sentBy other (state.loops (home conn)).handling ∧
        sentBy other value.pending = sentBy other (state.loops (home conn)).pending)
    (hview : ViewSound net { state.view home conn with
      peer := peer
      handling := sentBy conn value.handling
      pending := sentBy conn value.pending }) :
    Sound net home ((state.setLoop (home conn) value).setPeer conn peer) := by
  refine hsound.update rfl (fun other hsame ↦ Function.update_of_ne hsame _ _) hsound.pool
    hsound.running hsound.short hhandled hqueued hclosed hothers (fun _ _ ↦ ⟨rfl, rfl⟩) ?_
  have hnext : ((state.setLoop (home conn) value).setPeer conn peer).view home conn =
      { state.view home conn with
        peer := peer
        handling := sentBy conn value.handling
        pending := sentBy conn value.pending } := by
    simp [State.view, State.setLoop, State.setPeer]
  rwa [hnext]

/-- The same for a step that changes the connection only. -/
theorem Sound.update_of_loop (hsound : Sound net home state) {conn : ℕ} {peer : Peer β}
    (hview : ViewSound net { state.view home conn with peer := peer }) :
    Sound net home (state.setPeer conn peer) := by
  have hsame : state.setPeer conn peer =
      (state.setLoop (home conn) (state.loops (home conn))).setPeer conn peer := by
    simp [State.setLoop, State.setPeer]
  rw [hsame]
  exact hsound.update_of_pool (hsound.handled _) (hsound.queued _) (hsound.closed _)
    (fun _ _ _ ↦ ⟨rfl, rfl⟩) hview

/-- The same for a step of the pool alone. -/
theorem Sound.update_pool (hsound : Sound net home state)
    {pool : ThreadPool.State threadNum (ℕ × Bytes)} (hpool : ThreadPool.Sound pool)
    (hrunning : pool.running = true) (haccepted : pool.accepted = state.pool.accepted)
    (hviews : ∀ conn, ViewSound net (State.view home { state with pool := pool } conn)) :
    Sound net home { state with pool := pool } :=
  ⟨hpool, hrunning, haccepted ▸ hsound.short, hsound.handled, hsound.queued, hsound.closed, hviews⟩

theorem up_sound (hsound : Sound net home state) (conn : ℕ) :
    Sound net home (state.up home conn) := by
  unfold State.up
  split_ifs with henabled
  · refine hsound.update_of_loop ((hsound.views conn).up henabled.2 ?_)
    have hstarted : state.pool.executed.Subperm state.pool.started := by
      have hmultiset : (state.pool.executed : Multiset (ℕ × Bytes)) ≤ state.pool.started := by
        rw [hsound.pool.once]
        exact Multiset.le_add_right _ _
      exact hmultiset
    have haccepted : state.pool.executed.Subperm state.pool.accepted := by
      rw [hsound.pool.order]
      exact hstarted.trans (List.sublist_append_left _ _).subperm
    obtain ⟨chosen, hperm, hsublist⟩ := haccepted.filter fun entry ↦ entry.1 = conn
    exact ⟨chosen.map Prod.snd, hperm.map _, hsublist.map _⟩
  · exact hsound

theorem down_sound (hsound : Sound net home state) (conn : ℕ) :
    Sound net home (state.down home conn) := by
  unfold State.down
  split_ifs
  · exact hsound.update_of_loop (hsound.views conn).down
  · exact hsound

theorem read_sound (hsound : Sound net home state) (conn : ℕ) (chunk : Bytes) :
    Sound net home (state.read net home conn chunk) := by
  unfold State.read
  dsimp only
  by_cases henabled : (state.loops (home conn)).Idle ∧ (state.peers conn).Member
  · rw [if_pos henabled]
    obtain ⟨⟨hnothing, -⟩, hmember⟩ := henabled
    have hidle : (state.view home conn).handling = [] := by
      show sentBy conn (state.loops (home conn)).handling = []
      rw [hnothing]
      rfl
    refine hsound.update_of_pool (fun entry hentry ↦ ?_) (hsound.queued _) (fun other hother ↦ ?_)
      (fun other hother _ ↦ ⟨?_, rfl⟩) ?_
    · obtain ⟨message, hmessage, rfl⟩ := List.mem_map.mp hentry
      exact ⟨rfl, Chat.length_le_of_mem_onMessage hmessage⟩
    · split_ifs at hother
      rw [Option.some.inj hother]
    · rw [Chat.sentBy_map, if_neg (Ne.symm hother), hnothing]
      rfl
    · rw [Chat.sentBy_map, if_pos rfl]
      exact (hsound.views conn).read hmember hidle chunk
  · rw [if_neg henabled]
    exact hsound

/-- A message that is handed in changes the pool of a sound server in this way. -/
theorem run_pool (hsound : Sound net home state) (entry : ℕ × Bytes) (chosen : ℕ) :
    ThreadPool.Sound (state.pool.run entry chosen) ∧
      (state.pool.run entry chosen).running = true ∧
      (state.pool.run entry chosen).accepted = state.pool.accepted ++ [entry] ∧
      (state.pool.run entry chosen).executed = state.pool.executed := by
  have hstep : ThreadPool.step state.pool (.run entry chosen) =
      .ok (state.pool.run entry chosen) := rfl
  obtain ⟨haccepted, hrunning⟩ :=
    ThreadPool.step_of_running (by decide) hsound.running hstep
  exact ⟨ThreadPool.step_sound hsound.pool hstep, hrunning, haccepted,
    ThreadPool.executed_run state.pool (by decide) entry chosen⟩

theorem callback_sound (hsound : Sound net home state) (loop : Fin n) (chosen : ℕ) :
    Sound net home (state.callback loop chosen) := by
  unfold State.callback
  dsimp only
  split
  · rename_i entry rest hhandling
    have hentry : entry ∈ (state.loops loop).handling := by simp [hhandling]
    obtain ⟨rfl, hlength⟩ := hsound.handled loop entry hentry
    have hrest : ∀ other ∈ rest, other ∈ (state.loops (home entry.1)).handling := by
      intro other hother
      simp [hhandling, hother]
    obtain ⟨hpool, hrunning, haccepted, hexecuted⟩ := run_pool hsound entry chosen
    have hothers : ∀ other, other ≠ entry.1 → sentBy other [entry] = [] :=
      fun other hother ↦ Chat.sentBy_of_ne (Ne.symm hother)
    refine hsound.update rfl (fun _ _ ↦ rfl) hpool hrunning (fun other hother ↦ ?_)
      (fun other hother ↦ hsound.handled _ other (hrest other hother)) (hsound.queued _)
      (hsound.closed _) (fun other hother _ ↦ ⟨?_, rfl⟩) (fun other hother ↦ ⟨?_, ?_⟩) ?_
    · rw [haccepted] at hother
      obtain hbefore | hnow := List.mem_append.mp hother
      · exact hsound.short other hbefore
      · rwa [List.mem_singleton.mp hnow]
    · rw [hhandling, Chat.sentBy_cons, hothers other hother]
      rfl
    · rw [haccepted, Chat.sentBy_append, hothers other hother, List.append_nil]
    · rw [hexecuted]
    · have hview : (state.view home entry.1).handling = entry.2 :: sentBy entry.1 rest := by
        simp [State.view, hhandling, sentBy]
      have hnext : State.view home { state.setLoop (home entry.1) { state.loops (home entry.1) with
            handling := rest } with pool := state.pool.run entry chosen } entry.1 =
          { state.view home entry.1 with
            handling := sentBy entry.1 rest
            accepted := (state.view home entry.1).accepted ++ [entry.2] } := by
        simp [State.view, State.setLoop, haccepted, hexecuted, sentBy]
      rw [hnext]
      exact (hsound.views entry.1).accept hview
  · split
    · rename_i hhandling conn hclosing
      obtain rfl := hsound.closed loop conn hclosing
      refine hsound.update_of_pool (hsound.handled _) (hsound.queued _)
        (fun _ hother ↦ by cases hother) (fun _ _ _ ↦ ⟨rfl, rfl⟩) ?_
      exact (hsound.views conn).shutdown
    · exact hsound

/-- A thread of the pool that goes on changes the pool of a sound server in this way. -/
theorem advance_pool (hsound : Sound net home state) (thread : Fin threadNum) :
    ThreadPool.Sound (state.pool.advance thread) ∧
      (state.pool.advance thread).running = true ∧
      (state.pool.advance thread).accepted = state.pool.accepted := by
  have hstep : ThreadPool.step state.pool (.advance thread) =
      .ok (state.pool.advance thread) := rfl
  obtain ⟨haccepted, hrunning⟩ :=
    ThreadPool.step_of_running (by decide) hsound.running hstep
  exact ⟨ThreadPool.step_sound hsound.pool hstep, hrunning,
    haccepted.trans (List.append_nil _)⟩

/-- What a thread is about to send is short enough for `send`. -/
theorem length_of_task (hsound : Sound net home state) {thread : Fin threadNum}
    {task : ℕ × Bytes} (htask : (state.pool.phases thread).task? = some task) :
    task.2.length < 2 ^ 31 := by
  have hphase : state.pool.phases thread = .performing task := by
    cases hphase : state.pool.phases thread <;> simp_all [ThreadPool.Phase.task?]
  have hheld := ThreadPool.mem_held_iff.mpr ⟨thread, hphase⟩
  have hstarted : task ∈ (state.pool.started : Multiset (ℕ × Bytes)) := by
    rw [hsound.pool.once]
    exact Multiset.mem_add.mpr (.inr hheld)
  have haccepted : task ∈ state.pool.accepted := by
    rw [hsound.pool.order]
    exact List.mem_append.mpr (.inl hstarted)
  exact (hsound.short task haccepted).trans_lt (by decide)

theorem queueSend_sound (hsound : Sound net home state) {thread : Fin threadNum} {conn : ℕ}
    (message : Message)
    (htask : (state.pool.phases thread).task? = some (conn, message.bytes)) :
    Sound net home { state.queueSend home conn message.bytes (wire [message]) with
      pool := state.pool.advance thread } := by
  obtain ⟨hpool, hrunning, haccepted⟩ := advance_pool hsound thread
  have hexecuted := ThreadPool.executed_advance state.pool thread
  rw [htask] at hexecuted
  have hothers : ∀ other, other ≠ conn → ∀ bytes : Bytes, sentBy other [(conn, bytes)] = [] :=
    fun other hother bytes ↦ Chat.sentBy_of_ne (Ne.symm hother)
  unfold State.queueSend
  dsimp only
  split_ifs with hconnected
  · refine hsound.update rfl (fun other hother ↦ Function.update_of_ne hother _ _) hpool hrunning
      (haccepted ▸ hsound.short) (hsound.handled _) (fun entry hentry ↦ ?_) (hsound.closed _)
      (fun other hother _ ↦ ⟨rfl, ?_⟩) (fun other hother ↦ ⟨?_, ?_⟩) ?_
    · obtain hbefore | hnow := List.mem_append.mp hentry
      · exact hsound.queued _ entry hbefore
      · rw [List.mem_singleton.mp hnow]
    · rw [Chat.sentBy_append, hothers other hother, List.append_nil]
    · rw [haccepted]
    · rw [hexecuted, Chat.sentBy_append, Option.toList_some, hothers other hother, List.append_nil]
    · simpa [State.view, State.setLoop, State.setPeer, haccepted, hexecuted, sentBy] using
        (hsound.views conn).execute_open hconnected message
  · refine hsound.update_pool hpool hrunning haccepted fun other ↦ ?_
    by_cases hsame : other = conn
    · subst hsame
      simpa [State.view, haccepted, hexecuted, sentBy] using
        (hsound.views other).execute_closed hconnected message.bytes
    · have hkept : sentBy other (state.pool.advance thread).executed =
          sentBy other state.pool.executed := by
        rw [hexecuted, Chat.sentBy_append, Option.toList_some, hothers other hsame,
          List.append_nil]
      simpa [State.view, haccepted, hkept] using hsound.views other

theorem sendMessage_eq (conn : ℕ) (message : Message) :
    state.sendMessage net home conn message.bytes =
      .ok (state.queueSend home conn message.bytes (wire [message])) := by
  obtain ⟨buf, hsend, hcontent⟩ := Option.map_eq_some_iff.mp (Chat.content_send net message)
  rw [State.sendMessage, hsend, ← hcontent]
  rfl

/-- A thread sends the message of its task without an exception. -/
theorem advance_sound (hsound : Sound net home state) (thread : Fin threadNum) :
    ∃ next, state.advance net home thread = .ok next ∧ Sound net home next := by
  unfold State.advance
  cases htask : (state.pool.phases thread).task? with
  | none =>
    obtain ⟨hpool, hrunning, haccepted⟩ := advance_pool hsound thread
    have hexecuted := ThreadPool.executed_advance state.pool thread
    rw [htask, Option.toList_none, List.append_nil] at hexecuted
    refine ⟨_, rfl, hsound.update_pool hpool hrunning haccepted fun conn ↦ ?_⟩
    simpa [State.view, haccepted, hexecuted] using hsound.views conn
  | some task =>
    obtain ⟨conn, text⟩ := task
    obtain ⟨message, rfl⟩ : ∃ message : Message, message.bytes = text :=
      ⟨⟨text, length_of_task hsound htask⟩, rfl⟩
    dsimp only
    rw [sendMessage_eq]
    exact ⟨_, rfl, queueSend_sound hsound message htask⟩

theorem wake_sound (hsound : Sound net home state) (thread : Fin threadNum) :
    Sound net home { state with pool := state.pool.wake thread } := by
  have hstep : ThreadPool.step state.pool (.wake thread) = .ok (state.pool.wake thread) := rfl
  obtain ⟨-, hrunning⟩ := ThreadPool.step_of_running (by decide) hsound.running hstep
  obtain ⟨haccepted, hexecuted⟩ := ThreadPool.wake_kept state.pool thread
  refine hsound.update_pool (ThreadPool.step_sound hsound.pool hstep) hrunning haccepted
    fun conn ↦ ?_
  simpa [State.view, haccepted, hexecuted] using hsound.views conn

theorem sendInLoop_sound (hsound : Sound net home state) (loop : Fin n) :
    Sound net home (state.sendInLoop loop) := by
  unfold State.sendInLoop
  dsimp only
  split
  · exact hsound
  · rename_i conn bytes rest hpending
    by_cases hidle : (state.loops loop).Idle
    · rw [if_pos hidle]
      have hfirst : (conn, bytes) ∈ (state.loops loop).pending := by simp [hpending]
      obtain rfl := hsound.queued loop _ hfirst
      refine hsound.update_of_pool (hsound.handled _) (fun entry hentry ↦ ?_) (hsound.closed _)
        (fun other hother _ ↦ ⟨rfl, ?_⟩) ?_
      · exact hsound.queued _ entry (by simp [hpending, hentry])
      · rw [hpending, Chat.sentBy_cons, Chat.sentBy_of_ne (Ne.symm hother)]
        rfl
      · have hqueued : (state.view home conn).pending = bytes :: sentBy conn rest := by
          simp [State.view, hpending, sentBy]
        exact (hsound.views conn).write hqueued
    · rw [if_neg hidle]
      exact hsound

/-- No step aborts, and every step keeps the server sound. -/
theorem step_sound (hsound : Sound net home state) (action : Action n) :
    ∃ next, step net home state action = .ok next ∧ Sound net home next := by
  cases action with
  | up conn => exact ⟨_, rfl, up_sound hsound conn⟩
  | down conn => exact ⟨_, rfl, down_sound hsound conn⟩
  | read conn chunk => exact ⟨_, rfl, read_sound hsound conn chunk⟩
  | callback loop chosen => exact ⟨_, rfl, callback_sound hsound loop chosen⟩
  | advance thread => exact advance_sound hsound thread
  | wake thread => exact ⟨_, rfl, wake_sound hsound thread⟩
  | sendInLoop loop => exact ⟨_, rfl, sendInLoop_sound hsound loop⟩

/-! ### The pool in the server -/

theorem advance_eq_ok {thread : Fin threadNum} (hstep : state.advance net home thread = .ok next) :
    next.pool = state.pool.advance thread := by
  unfold State.advance at hstep
  split at hstep
  · rename_i task htask
    cases hsent : state.sendMessage net home task.1 task.2 with
    | error aborted =>
      rw [hsent] at hstep
      cases hstep
    | ok sent =>
      rw [hsent] at hstep
      cases hstep
      rfl
  · cases hstep
    rfl

/-- A step of the server is a step of the pool or leaves it alone. -/
theorem step_pool {action : Action n} (hstep : step net home state action = .ok next) :
    run ThreadPool.step state.pool (poolEvent state action).toList = .ok next.pool := by
  cases action with
  | up conn =>
    cases hstep
    unfold State.up
    split_ifs <;> rfl
  | down conn =>
    cases hstep
    unfold State.down
    split_ifs <;> rfl
  | read conn chunk =>
    cases hstep
    unfold State.read
    dsimp only
    by_cases henabled : (state.loops (home conn)).Idle ∧ (state.peers conn).Member
    · rw [if_pos henabled]
      rfl
    · rw [if_neg henabled]
      rfl
  | callback loop chosen =>
    cases hstep
    unfold State.callback poolEvent
    dsimp only
    split
    · rename_i entry rest hhandling
      rw [hhandling]
      rfl
    · rename_i hhandling
      rw [hhandling]
      split <;> rfl
  | advance thread =>
    rw [advance_eq_ok hstep]
    rfl
  | wake thread =>
    cases hstep
    rfl
  | sendInLoop loop =>
    cases hstep
    unfold State.sendInLoop
    dsimp only
    split
    · rfl
    · split_ifs <;> rfl

/-- The thread pool in a run of the server is a run of the thread pool. -/
theorem pool_simulates {actions : List (Action n)} {final : State n β}
    (hrun : run (step net home) (start net n) actions = .ok final) :
    run ThreadPool.step (ThreadPool.start threadNum (ℕ × Bytes))
      (trace (step net home) poolEvent (start net n) actions) = .ok final.pool := by
  have hmatched : ∀ (state : State n β) action next upper, upper = state.pool →
      step net home state action = .ok next →
      ∃ after, run ThreadPool.step upper (poolEvent state action).toList = .ok after ∧
        after = next.pool := by
    rintro state action next _ rfl hstep
    exact ⟨_, step_pool hstep, rfl⟩
  obtain ⟨after, hafter, rfl⟩ := run_simulates hmatched rfl hrun
  exact hafter

/-! ### Whole runs -/

theorem step_preserves (state : State n β) (action : Action n) (next : State n β)
    (hsound : Sound net home state) (hstep : step net home state action = .ok next) :
    Sound net home next := by
  obtain ⟨other, hother, hkept⟩ := step_sound hsound action
  rw [hother] at hstep
  rwa [← Except.ok.inj hstep]

theorem reached_sound {actions : List (Action n)} {final : State n β}
    (hrun : run (step net home) (start net n) actions = .ok final) : Sound net home final :=
  run_invariant step_preserves (start_sound n home) hrun

variable (net home) in
/-- Whatever the clients send, no thread of the server throws. -/
theorem echo_never_aborts (actions : List (Action n)) :
    ∃ final, run (step net home) (start net n) actions = .ok final := by
  have hguarded : Guarded (step net home) (fun _ _ ↦ True) (start net n) actions :=
    guarded_of_forall_mem (fun _ _ ↦ trivial) (start net n)
  obtain ⟨final, hrun, -⟩ := hguarded.run_isOk (fun _ action hsound _ ↦ step_sound hsound action)
    (start_sound n home)
  exact ⟨final, hrun⟩

/-- The messages of a connection are executed in an order in which none overtakes more than four
others. -/
theorem executed_in_window {actions : List (Action n)} {final : State n β}
    (hrun : run (step net home) (start net n) actions = .ok final) (conn : ℕ) :
    Within (threadNum - 1) (sentBy conn final.pool.accepted) (sentBy conn final.pool.executed) :=
  ((ThreadPool.executed_within (by decide) (pool_simulates hrun)).filter _).map _

/-- What a client has got back, in whatever chunks, are its messages unaltered, each at most once,
and none has overtaken more than four others. -/
theorem echoes_in_window {actions : List (Action n)} {final : State n β} {conn : ℕ}
    {messages : List Message} {chunks : List Bytes}
    (hrun : run (step net home) (start net n) actions = .ok final)
    (hsent : (final.peers conn).chunks.flatten <+: wire messages)
    (hback : chunks.flatten <+: (final.peers conn).output) :
    Within (threadNum - 1) (messages.map Message.bytes)
      (receive net (.start net.toNetBuffer) chunks).1 := by
  have hview := (reached_sound hrun).views conn
  have haccepted : sentBy conn final.pool.accepted <+: messages.map Message.bytes := by
    have hreceived : (receive net (.start net.toNetBuffer) (final.peers conn).chunks).1 =
        sentBy conn final.pool.accepted ++ sentBy conn (final.loops (home conn)).handling :=
      congrArg Prod.fst hview.received
    exact (List.prefix_append _ _).trans (hreceived ▸ (Chat.receive_wire hsent).1)
  obtain ⟨written, waiting, hwritten, houtput, -⟩ := hview.written
  have hexecuted : (receive net (.start net.toNetBuffer) chunks).1 <+:
      sentBy conn final.pool.executed := by
    have hfirst : written.map Message.bytes <+: (final.peers conn).sent := by
      rw [← show _ = (final.peers conn).sent from hwritten, List.map_append]
      exact List.prefix_append _ _
    have hback' : chunks.flatten <+: wire written := houtput ▸ hback
    exact ((Chat.receive_wire hback').1.trans hfirst).trans hview.sent
  obtain ⟨later, hlater⟩ := haccepted
  rw [← hlater]
  exact ((executed_in_window hrun conn).append later).initial hexecuted

/-- When no thread of the pool can go on and nothing waits in the loop of a connection that is open,
the client has got back every message it sent. -/
theorem echoes_complete {actions : List (Action n)} {final : State n β} {conn : ℕ}
    {messages : List Message} {chunks : List Bytes}
    (hrun : run (step net home) (start net n) actions = .ok final)
    (hshort : ∀ message ∈ messages, message.bytes.length ≤ 65536)
    (hsent : (final.peers conn).chunks.flatten = wire messages)
    (hopen : (final.peers conn).state = .connected)
    (hquiet : ∀ thread, ¬ final.pool.CanStep thread)
    (hhandling : (final.loops (home conn)).handling = [])
    (hpending : (final.loops (home conn)).pending = [])
    (hback : chunks.flatten = (final.peers conn).output) :
    (receive net (.start net.toNetBuffer) chunks).1.Perm (messages.map Message.bytes) := by
  have hsound := reached_sound hrun
  have hview := hsound.views conn
  have haccepted : sentBy conn final.pool.accepted = messages.map Message.bytes := by
    have hreceived : (receive net (.start net.toNetBuffer) (final.peers conn).chunks).1 =
        sentBy conn final.pool.accepted ++ sentBy conn (final.loops (home conn)).handling :=
      congrArg Prod.fst hview.received
    rw [hhandling, Chat.receive_all hshort hsent] at hreceived
    rw [hreceived]
    exact (List.append_nil _).symm
  obtain ⟨-, -, hexecuted⟩ := hsound.pool.quiescent hsound.running hquiet
  have hperm : (sentBy conn final.pool.executed).Perm (sentBy conn final.pool.accepted) :=
    (hexecuted.filter _).map _
  obtain ⟨written, waiting, hwritten, houtput, hqueued⟩ := hview.written
  have hnothing : waiting = [] := by
    have hwaiting : sentBy conn (final.loops (home conn)).pending =
        waiting.map fun message ↦ wire [message] :=
      hqueued fun hdown ↦ nomatch hopen.symm.trans hdown
    rw [hpending] at hwaiting
    exact List.map_eq_nil_iff.mp hwaiting.symm
  have hall : (written.map Message.bytes).Perm (messages.map Message.bytes) := by
    rw [hnothing, List.append_nil] at hwritten
    rw [hwritten, hview.connected hopen, ← haccepted]
    exact hperm
  have hwrittenShort : ∀ message ∈ written, message.bytes.length ≤ 65536 := by
    intro message hmessage
    obtain ⟨other, hother, hbytes⟩ :=
      List.mem_map.mp (hall.mem_iff.mp (List.mem_map_of_mem hmessage))
    rw [← hbytes]
    exact hshort other hother
  rwa [Chat.receive_all hwrittenShort (hback.trans houtput)]

end Server

/-! ### A run in which the second message overtakes the first -/

def ping : Message := ⟨[112], by decide⟩

def pong : Message := ⟨[113], by decide⟩

/-- The server whose only connection has read messages and handed in none of them. -/
def pinged (result : List Bytes × Bytes × Bool) : State 1 Bytes where
  loops := Function.update (fun _ ↦ ⟨[], none, []⟩) 0
    ⟨result.1.map (Prod.mk 0), if 0 < (if result.2.2 then 1 else 0) then some 0 else none, []⟩
  peers := Function.update
    (Function.update (fun _ ↦ .fresh .ofBytes) 0 { Peer.fresh .ofBytes with state := .connected }) 0
    ⟨.connected, ⟨result.2.1, if result.2.2 then 1 else 0⟩, [], [wire [ping, pong]], []⟩
  pool := ThreadPool.start threadNum (ℕ × Bytes)

/-- Both messages are handed in. The first thread takes the first one, the second thread takes the
second one and is done before it; then all threads look at the empty queue and wait. -/
def overtaking : List (Action 1) :=
  [.callback 0 0, .callback 0 0, .advance 0, .advance 0, .advance 1, .advance 1, .advance 1,
    .advance 0, .sendInLoop 0, .sendInLoop 0] ++
    (List.finRange threadNum).flatMap fun thread ↦ [.advance thread, .advance thread]

theorem onMessage_pings :
    LengthHeader.onMessage PrependBuffer.ofBytes.toNetBuffer layout (wire [ping, pong]) =
      ([ping.bytes, pong.bytes], [], false) := by
  rw [LengthHeader.onMessage, dif_pos (by decide), if_neg (by decide), if_pos (by decide)]
  rw [LengthHeader.onMessage, dif_pos (by decide), if_neg (by decide), if_pos (by decide)]
  rw [LengthHeader.onMessage, dif_neg (by decide)]
  decide

theorem run_pinged : run (step .ofBytes fun _ ↦ 0) (start .ofBytes 1)
    [.up 0, .read 0 (wire [ping, pong])] =
      .ok (pinged ([ping.bytes, pong.bytes], [], false)) := by
  rw [← onMessage_pings]
  rfl

/-- Both messages came back, and nothing is left to do. -/
def Rested (state : State 1 Bytes) : Prop :=
  (state.peers 0).chunks = [wire [ping, pong]] ∧ (state.peers 0).state = .connected ∧
    (∀ thread, ¬ state.pool.CanStep thread) ∧ (state.loops 0).handling = [] ∧
    (state.loops 0).pending = [] ∧ (state.peers 0).output = wire [pong, ping]

instance (state : State 1 Bytes) : Decidable (Rested state) :=
  inferInstanceAs (Decidable (_ ∧ _ ∧ _ ∧ _ ∧ _ ∧ _))

theorem exists_rested : ∃ final, run (step .ofBytes fun _ ↦ 0) (start .ofBytes 1)
    ([.up 0, .read 0 (wire [ping, pong])] ++ overtaking) = .ok final ∧ Rested final := by
  have hrested : (run (step .ofBytes fun _ ↦ 0) (pinged ([ping.bytes, pong.bytes], [], false))
      overtaking).toOption.any (fun final ↦ decide (Rested final)) = true := by
    decide +kernel
  cases hrun : run (step .ofBytes fun _ ↦ 0) (pinged ([ping.bytes, pong.bytes], [], false))
      overtaking with
  | error aborted =>
    rw [hrun] at hrested
    cases hrested
  | ok final =>
    rw [hrun] at hrested
    exact ⟨final, run_append_eq_ok_iff.mpr ⟨_, run_pinged, hrun⟩, of_decide_eq_true hrested⟩

/-- The client has got the second message back before the first one. -/
theorem echoes_in_window_pings : ∃ final, run (step .ofBytes fun _ ↦ 0) (start .ofBytes 1)
    ([.up 0, .read 0 (wire [ping, pong])] ++ overtaking) = .ok final ∧
    (final.peers 0).output = wire [pong, ping] ∧
    Within 4 [ping.bytes, pong.bytes] (receive .ofBytes
      (.start PrependBuffer.ofBytes.toNetBuffer) [(final.peers 0).output]).1 := by
  obtain ⟨final, hrun, hchunks, -, -, -, -, houtput⟩ := exists_rested
  have hsent : (final.peers 0).chunks.flatten <+: wire [ping, pong] := by
    rw [hchunks, List.flatten_singleton]
  have hback : [(final.peers 0).output].flatten <+: (final.peers 0).output := by
    rw [List.flatten_singleton]
  exact ⟨final, hrun, houtput, echoes_in_window hrun hsent hback⟩

theorem echoes_complete_pings : ∃ final, run (step .ofBytes fun _ ↦ 0) (start .ofBytes 1)
    ([.up 0, .read 0 (wire [ping, pong])] ++ overtaking) = .ok final ∧
    (receive .ofBytes (.start PrependBuffer.ofBytes.toNetBuffer)
      [(final.peers 0).output]).1.Perm [ping.bytes, pong.bytes] := by
  obtain ⟨final, hrun, hchunks, hopen, hquiet, hhandling, hpending, -⟩ := exists_rested
  have hsent : (final.peers 0).chunks.flatten = wire [ping, pong] := by
    rw [hchunks, List.flatten_singleton]
  exact ⟨final, hrun, echoes_complete hrun (by decide) hsent hopen hquiet hhandling hpending
    List.flatten_singleton⟩

end TradeServers.ComServer
