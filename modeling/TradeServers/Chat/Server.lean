import TradeServers.Chat.Codec
import TradeServers.Library.Execution

/-!
# The chat server

`ChatServer` runs several event loops, each in a thread of its own, and every connection lives in
one of them. A message that a connection receives is queued in all loops, one after the other, while
`mutex_` is held; each loop sends it to its own connections when it gets to it. The steps of the
model are those of the loops between which another thread can run: `queueInLoop` is a step for each
loop, and what a loop reads from a connection waits in `handling` until it has the mutex for it.

- `run_succeeds`: no message is long enough for `send` to throw.
- `senders_in_order`: the messages of a connection are distributed in the order in which it sent
  them, each once.
- `broadcast_total_order`: all connections receive segments of one sequence, and a connection that
  is up receives all of it from where it came up.
- `clients_receive`: a client gets out of the bytes that the server sent, in any chunks, what the
  server distributed to it.
-/

set_option autoImplicit false
set_option relaxedAutoImplicit false

namespace TradeServers.Chat

open Execution LengthHeader

variable {β : Type} {n : ℕ}

/-! ### Connections and loops -/

/-- The states of a `TcpConnection`. -/
inductive ConnState
  | connecting
  | connected
  | disconnecting
  | disconnected
deriving DecidableEq

/-- The server's side of a connection: its state, what it has received and not retrieved, and the
bytes it was given to send. The chunks it received, the messages it was sent, and how many messages
its loop had distributed when it came up are kept with it. -/
structure Peer (β : Type) where
  state : ConnState
  input : Connection β
  output : Bytes
  chunks : List Bytes
  delivered : List Bytes
  since : ℕ

/-- An event loop: the connections in its thread, the messages of the functors that are queued in
it, the messages it has read and not got the mutex for, and those it has distributed. -/
structure Loop where
  connections : List ℕ
  pending : List Bytes
  handling : List (ℕ × Bytes)
  ran : List Bytes

/-- The loop that holds `mutex_`, the message it is queueing, and the loops it still has to queue it
in. -/
structure Held (n : ℕ) where
  loop : Fin n
  message : Bytes
  remaining : List (Fin n)

/-- The server. The messages are logged with their senders in the order in which the mutex was taken
for them. -/
structure State (n : ℕ) (β : Type) where
  loops : Fin n → Loop
  peers : ℕ → Peer β
  holder : Option (Held n)
  log : List (ℕ × Bytes)

/-- The exception of `Buffer::append` for a length that no buffer can hold. -/
inductive Thrown
  | lengthError

section Server

variable (net : PrependBuffer β)

def Peer.fresh : Peer β := ⟨.connecting, .start net.toNetBuffer, [], [], [], 0⟩

def start (n : ℕ) : State n β :=
  ⟨fun _ ↦ ⟨[], [], [], []⟩, fun _ ↦ .fresh net, none, []⟩

/-- A connection is in the set of its loop from the moment it came up until it goes down. -/
def Peer.Member (peer : Peer β) : Prop :=
  peer.state = .connected ∨ peer.state = .disconnecting

instance (peer : Peer β) : Decidable peer.Member := inferInstanceAs (Decidable (_ ∨ _))

/-- `TcpConnection::send`: what is sent on a connection that is closing is dropped. -/
def Peer.send (peer : Peer β) (bytes message : Bytes) : Peer β :=
  if peer.state = .connected then
    { peer with output := peer.output ++ bytes, delivered := peer.delivered ++ [message] }
  else peer

/-- A chunk arrives, and `onMessage` is called. It may shut the connection down. -/
def Peer.read (peer : Peer β) (chunk : Bytes) : List Bytes × Peer β :=
  let result := (peer.input.arrive net.toNetBuffer chunk).onMessage net.toNetBuffer layout
  (result.1, { peer with
    input := result.2
    chunks := peer.chunks ++ [chunk]
    state :=
      if peer.input.shutdowns < result.2.shutdowns ∧ peer.state = .connected then .disconnecting
      else peer.state })

/-- A loop that neither waits for the mutex nor holds it. -/
def State.Idle (state : State n β) (loop : Fin n) : Prop :=
  (state.loops loop).handling = [] ∧ state.holder.map Held.loop ≠ some loop

instance (state : State n β) (loop : Fin n) : Decidable (state.Idle loop) :=
  inferInstanceAs (Decidable (_ ∧ _))

def State.setLoop (state : State n β) (loop : Fin n) (value : Loop) : State n β :=
  { state with loops := Function.update state.loops loop value }

def State.setPeer (state : State n β) (conn : ℕ) (value : Peer β) : State n β :=
  { state with peers := Function.update state.peers conn value }

variable (home : ℕ → Fin n)

/-- `onConnection` for a connection that came up, in the loop it was given to. -/
def State.up (state : State n β) (conn : ℕ) : State n β :=
  let loop := state.loops (home conn)
  if state.Idle (home conn) ∧ (state.peers conn).state = .connecting then
    (state.setLoop (home conn) { loop with connections := conn :: loop.connections }).setPeer conn
      { state.peers conn with state := .connected, since := loop.ran.length }
  else state

/-- `onConnection` for a connection that went down. -/
def State.down (state : State n β) (conn : ℕ) : State n β :=
  let loop := state.loops (home conn)
  if state.Idle (home conn) ∧ (state.peers conn).Member then
    (state.setLoop (home conn) { loop with connections := loop.connections.erase conn }).setPeer
      conn { state.peers conn with state := .disconnected }
  else state

/-- Bytes arrive on a connection; `onStringMessage` is going to be called for each message in
them. -/
def State.read (state : State n β) (conn : ℕ) (chunk : Bytes) : State n β :=
  let loop := state.loops (home conn)
  let result := (state.peers conn).read net chunk
  if state.Idle (home conn) ∧ (state.peers conn).Member then
    (state.setLoop (home conn) { loop with handling := result.1.map (Prod.mk conn) }).setPeer conn
      result.2
  else state

/-- `onStringMessage` takes the mutex, if it is free. -/
def State.lock (state : State n β) (loop : Fin n) : State n β :=
  match state.holder, (state.loops loop).handling with
  | none, entry :: rest =>
    { state.setLoop loop { state.loops loop with handling := rest } with
      holder := some ⟨loop, entry.2, List.finRange n⟩, log := state.log ++ [entry] }
  | _, _ => state

/-- The loop of `onStringMessage` over all event loops, one iteration; behind the last one it gives
the mutex back. -/
def State.queueInLoop (state : State n β) : State n β :=
  match state.holder with
  | none => state
  | some held =>
    match held.remaining with
    | [] => { state with holder := none }
    | next :: rest =>
      { state.setLoop next { state.loops next with
          pending := (state.loops next).pending ++ [held.message] } with
        holder := some { held with remaining := rest } }

/-- The loop of `distributeMessage` over the connections, where `send` makes the same buffer of the
message every time. -/
def sendAll (framed : Option β) (message : Bytes) :
    List ℕ → (ℕ → Peer β) → Except Thrown (ℕ → Peer β)
  | [], peers => .ok peers
  | conn :: conns, peers =>
    match framed with
    | none => .error .lengthError
    | some buf =>
      sendAll framed message conns
        (Function.update peers conn ((peers conn).send (net.content buf) message))

/-- `distributeMessage`: the message is sent on every connection of the loop. -/
def distributeMessage (message : Bytes) (conns : List ℕ) (peers : ℕ → Peer β) :
    Except Thrown (ℕ → Peer β) :=
  sendAll net (send net message) message conns peers

/-- A loop runs the first of its pending functors. -/
def State.runFunctor (state : State n β) (loop : Fin n) : Except Thrown (State n β) :=
  if state.Idle loop then
    match (state.loops loop).pending with
    | [] => .ok state
    | message :: rest =>
      match distributeMessage net message (state.loops loop).connections state.peers with
      | .error thrown => .error thrown
      | .ok peers =>
        .ok { state.setLoop loop { state.loops loop with
          pending := rest, ran := (state.loops loop).ran ++ [message] } with peers := peers }
  else .ok state

/-- What can happen in the server. -/
inductive Action (n : ℕ)
  | up (conn : ℕ)
  | down (conn : ℕ)
  | read (conn : ℕ) (chunk : Bytes)
  | lock (loop : Fin n)
  | queueInLoop
  | runFunctor (loop : Fin n)

def step (state : State n β) : Action n → Except Thrown (State n β)
  | .up conn => .ok (state.up home conn)
  | .down conn => .ok (state.down home conn)
  | .read conn chunk => .ok (state.read net home conn chunk)
  | .lock loop => .ok (state.lock loop)
  | .queueInLoop => .ok state.queueInLoop
  | .runFunctor loop => state.runFunctor net loop

/-! ### What holds in every state -/

/-- The messages of one sender. -/
def sentBy (conn : ℕ) (entries : List (ℕ × Bytes)) : List Bytes :=
  (entries.filter fun entry ↦ entry.1 = conn).map Prod.snd

/-- The message that is being queued, in a loop that has not got it yet. -/
def State.inHand (state : State n β) (loop : Fin n) : List Bytes :=
  match state.holder with
  | none => []
  | some held => if loop ∈ held.remaining then [held.message] else []

/-- What a connection was sent is what its loop has distributed since it came up, as long as it is
not closed; its bytes are the frames of these messages. -/
structure PeerSound (ran : List Bytes) (peer : Peer β) : Prop where
  since_le : peer.since ≤ ran.length
  segment : peer.delivered <+: ran.drop peer.since
  connected : peer.state = .connected → peer.delivered = ran.drop peer.since
  fresh : peer.state = .connecting → peer = .fresh net
  output : ∃ messages : List Message, messages.map Message.bytes = peer.delivered ∧
    peer.output = wire messages

/-- Every loop has distributed, has queued or is about to get all logged messages, in the order of
the log; what a connection received is logged or waits in its loop. -/
structure Sound (state : State n β) : Prop where
  ordered : ∀ loop, (state.loops loop).ran ++ ((state.loops loop).pending ++ state.inHand loop) =
    state.log.map Prod.snd
  distinct : ∀ held, state.holder = some held → held.remaining.Nodup
  members : ∀ loop conn, conn ∈ (state.loops loop).connections ↔
    home conn = loop ∧ (state.peers conn).Member
  nodup : ∀ loop, (state.loops loop).connections.Nodup
  peers : ∀ conn, PeerSound net (state.loops (home conn)).ran (state.peers conn)
  inputs : ∀ conn, receive net (.start net.toNetBuffer) (state.peers conn).chunks =
    (sentBy conn state.log ++ sentBy conn (state.loops (home conn)).handling,
      (state.peers conn).input)
  handled : ∀ loop, ∀ entry ∈ (state.loops loop).handling, home entry.1 = loop
  short : ∀ entry ∈ state.log, entry.2.length ≤ 65536
  waiting : ∀ loop, ∀ entry ∈ (state.loops loop).handling, entry.2.length ≤ 65536

variable {net home} {state : State n β}

section Updates

variable (state)

theorem setLoop_loops (loop other : Fin n) (value : Loop) : (state.setLoop loop value).loops other =
    if other = loop then value else state.loops other :=
  Function.update_apply _ _ _ _

theorem setPeer_peers (conn other : ℕ) (value : Peer β) : (state.setPeer conn value).peers other =
    if other = conn then value else state.peers other :=
  Function.update_apply _ _ _ _

@[simp] theorem setLoop_peers (loop : Fin n) (value : Loop) :
    (state.setLoop loop value).peers = state.peers := rfl

@[simp] theorem setPeer_loops (conn : ℕ) (value : Peer β) :
    (state.setPeer conn value).loops = state.loops := rfl

end Updates

theorem sentBy_append (conn : ℕ) (first second : List (ℕ × Bytes)) :
    sentBy conn (first ++ second) = sentBy conn first ++ sentBy conn second := by
  rw [sentBy, List.filter_append, List.map_append]
  rfl

theorem sentBy_map (conn other : ℕ) (messages : List Bytes) :
    sentBy conn (messages.map (Prod.mk other)) = if other = conn then messages else [] := by
  unfold sentBy
  rw [List.filter_map, List.map_map]
  split_ifs with hsame
  · simp [hsame, Function.comp_def]
  · simp [hsame, Function.comp_def]

/-! ### Connections -/

theorem fresh_peerSound (ran : List Bytes) : PeerSound net ran (.fresh net) :=
  ⟨Nat.zero_le _, List.nil_prefix, fun hstate ↦ (nomatch hstate), fun _ ↦ rfl, [], rfl, rfl⟩

theorem PeerSound.up {ran : List Bytes} {peer : Peer β} (hpeer : PeerSound net ran peer)
    (hstate : peer.state = .connecting) :
    PeerSound net ran { peer with state := .connected, since := ran.length } := by
  obtain rfl := hpeer.fresh hstate
  refine ⟨le_rfl, List.nil_prefix, fun _ ↦ ?_, fun hstate ↦ (nomatch hstate), [], rfl, rfl⟩
  exact List.drop_length.symm

theorem PeerSound.down {ran : List Bytes} {peer : Peer β} (hpeer : PeerSound net ran peer) :
    PeerSound net ran { peer with state := .disconnected } :=
  ⟨hpeer.since_le, hpeer.segment, fun hstate ↦ (nomatch hstate), fun hstate ↦ (nomatch hstate),
    hpeer.output⟩

variable (net) in
theorem read_state (peer : Peer β) (chunk : Bytes) :
    (peer.read net chunk).2.state = peer.state ∨
      peer.state = .connected ∧ (peer.read net chunk).2.state = .disconnecting := by
  unfold Peer.read
  dsimp only
  split_ifs with hshutdown
  · exact .inr ⟨hshutdown.2, rfl⟩
  · exact .inl rfl

theorem PeerSound.read {ran : List Bytes} {peer : Peer β} (hpeer : PeerSound net ran peer)
    (hmember : peer.Member) (chunk : Bytes) : PeerSound net ran (peer.read net chunk).2 := by
  refine ⟨hpeer.since_le, hpeer.segment, fun hstate ↦ hpeer.connected ?_, fun hstate ↦ ?_,
    hpeer.output⟩
  · rcases read_state net peer chunk with hsame | ⟨hbefore, -⟩
    · exact hsame.symm.trans hstate
    · exact hbefore
  · have hbefore : peer.state ≠ .connecting := by
      rcases hmember with hmember | hmember <;> rw [hmember] <;> simp
    rcases read_state net peer chunk with hsame | ⟨-, hafter⟩
    · exact (hbefore (hsame.symm.trans hstate)).elim
    · rw [hafter] at hstate
      cases hstate

/-- A connection that is open is sent the message, any other is not. -/
theorem PeerSound.send {ran : List Bytes} {peer : Peer β} (hpeer : PeerSound net ran peer)
    (message : Message) :
    PeerSound net (ran ++ [message.bytes]) (peer.send (wire [message]) message.bytes) := by
  have hsince : peer.since ≤ (ran ++ [message.bytes]).length :=
    hpeer.since_le.trans (by simp)
  have hdrop : (ran ++ [message.bytes]).drop peer.since =
      ran.drop peer.since ++ [message.bytes] := List.drop_append_of_le_length hpeer.since_le
  unfold Peer.send
  split_ifs with hstate
  · have hall : peer.delivered ++ [message.bytes] =
        (ran ++ [message.bytes]).drop peer.since := by
      rw [hdrop, hpeer.connected hstate]
    obtain ⟨messages, hmessages, houtput⟩ := hpeer.output
    refine ⟨hsince, hall ▸ List.prefix_rfl, fun _ ↦ hall,
      fun hfresh ↦ ?_, messages ++ [message], ?_, ?_⟩
    · rw [hstate] at hfresh
      cases hfresh
    · rw [List.map_append, hmessages]
      rfl
    · rw [wire_append, ← houtput]
  · refine ⟨hsince, ?_, fun hopen ↦ (hstate hopen).elim, hpeer.fresh,
      hpeer.output⟩
    rw [hdrop]
    exact hpeer.segment.trans (List.prefix_append _ _)

theorem sendAll_eq (buf : β) (message : Bytes) {conns : List ℕ} (hnodup : conns.Nodup) :
    ∀ peers : ℕ → Peer β, sendAll net (some buf) message conns peers =
      .ok fun conn ↦ if conn ∈ conns then (peers conn).send (net.content buf) message
        else peers conn := by
  induction conns with
  | nil =>
    intro peers
    simp [sendAll]
  | cons first conns ih =>
    intro peers
    obtain ⟨hfirst, hrest⟩ := List.nodup_cons.mp hnodup
    rw [sendAll, ih hrest]
    refine congrArg Except.ok (funext fun conn ↦ ?_)
    by_cases hsame : conn = first
    · subst hsame
      rw [if_neg hfirst, if_pos List.mem_cons_self, Function.update_self]
    · rw [Function.update_of_ne hsame]
      simp only [List.mem_cons, hsame, false_or]

theorem distributeMessage_eq (message : Message) {conns : List ℕ} (hnodup : conns.Nodup)
    (peers : ℕ → Peer β) : distributeMessage net message.bytes conns peers =
      .ok fun conn ↦ if conn ∈ conns then (peers conn).send (wire [message]) message.bytes
        else peers conn := by
  obtain ⟨buf, hsend, hcontent⟩ := Option.map_eq_some_iff.mp (content_send net message)
  rw [distributeMessage, hsend, sendAll_eq buf _ hnodup, hcontent]

/-! ### The steps keep the server sound -/

theorem start_sound (n : ℕ) (home : ℕ → Fin n) : Sound net home (start net n) where
  ordered := fun _ ↦ rfl
  distinct := fun _ hheld ↦ nomatch hheld
  members := by
    intro loop conn
    have hfresh : ¬ (Peer.fresh net).Member := by
      rintro (hstate | hstate) <;> cases hstate
    exact ⟨fun hmem ↦ (nomatch hmem), fun hmember ↦ (hfresh hmember.2).elim⟩
  nodup := fun _ ↦ List.nodup_nil
  peers := fun _ ↦ fresh_peerSound _
  inputs := fun _ ↦ rfl
  handled := fun _ _ hentry ↦ nomatch hentry
  short := fun _ hentry ↦ nomatch hentry
  waiting := fun _ _ hentry ↦ nomatch hentry

/-- What loops have in common before and after a step that only moves connections. -/
theorem loops_of_setLoop {α : Type} (state : State n β) (field : Loop → α) {loop : Fin n}
    {value : Loop} (hsame : field value = field (state.loops loop)) (other : Fin n) :
    field ((state.setLoop loop value).loops other) = field (state.loops other) := by
  rw [setLoop_loops]
  split_ifs with heq
  · rw [heq, hsame]
  · rfl

/-- A step of a connection changes the connection and the loop it lives in, but not what the loop
has distributed or queued. -/
theorem setPeer_sound (hsound : Sound net home state) {conn : ℕ} {value : Loop} {peer : Peer β}
    (hran : value.ran = (state.loops (home conn)).ran)
    (hpending : value.pending = (state.loops (home conn)).pending)
    (hmembers : ∀ other, other ∈ value.connections ↔
      home other = home conn ∧ (if other = conn then peer else state.peers other).Member)
    (hnodup : value.connections.Nodup)
    (hpeer : PeerSound net (state.loops (home conn)).ran peer)
    (hinput : receive net (.start net.toNetBuffer) peer.chunks =
      (sentBy conn state.log ++ sentBy conn value.handling, peer.input))
    (hothers : ∀ other, other ≠ conn → home other = home conn →
      sentBy other value.handling = sentBy other (state.loops (home conn)).handling)
    (hhandled : ∀ entry ∈ value.handling, home entry.1 = home conn ∧ entry.2.length ≤ 65536) :
    Sound net home ((state.setLoop (home conn) value).setPeer conn peer) := by
  have hrans := loops_of_setLoop state Loop.ran hran
  have hpendings := loops_of_setLoop state Loop.pending hpending
  refine ⟨fun loop ↦ ?_, hsound.distinct, fun loop other ↦ ?_, fun loop ↦ ?_, fun other ↦ ?_,
    fun other ↦ ?_, fun loop entry hentry ↦ ?_, hsound.short, fun loop entry hentry ↦ ?_⟩
  · rw [setPeer_loops, hrans, hpendings]
    exact hsound.ordered loop
  · rw [setPeer_loops, setLoop_loops, setPeer_peers]
    split_ifs with hloop hsame hsame
    · rw [hmembers, hloop, if_pos hsame]
    · rw [hmembers, hloop, if_neg hsame]
      rfl
    · rw [hsound.members, hsame]
      exact iff_of_false (fun hmember ↦ hloop hmember.1.symm) (fun hmember ↦ hloop hmember.1.symm)
    · exact hsound.members loop other
  · rw [setPeer_loops, setLoop_loops]
    split_ifs with hloop
    · exact hnodup
    · exact hsound.nodup loop
  · rw [setPeer_loops, hrans, setPeer_peers]
    split_ifs with hsame
    · rw [hsame]
      exact hpeer
    · exact hsound.peers other
  · rw [setPeer_loops, setPeer_peers, setLoop_loops]
    split_ifs with hsame hloop hloop
    · rw [hsame]
      exact hinput
    · exact (hloop (congrArg home hsame)).elim
    · rw [hothers other hsame hloop, ← hloop]
      exact hsound.inputs other
    · exact hsound.inputs other
  · rw [setPeer_loops, setLoop_loops] at hentry
    split_ifs at hentry with hloop
    · rw [hloop]
      exact (hhandled entry hentry).1
    · exact hsound.handled loop entry hentry
  · rw [setPeer_loops, setLoop_loops] at hentry
    split_ifs at hentry with hloop
    · exact (hhandled entry hentry).2
    · exact hsound.waiting loop entry hentry

theorem up_sound (hsound : Sound net home state) (conn : ℕ) :
    Sound net home (state.up home conn) := by
  unfold State.up
  dsimp only
  split_ifs with henabled
  · obtain ⟨hidle, hstate⟩ := henabled
    have hfresh := (hsound.peers conn).fresh hstate
    have habsent : conn ∉ (state.loops (home conn)).connections := by
      rw [hsound.members, hfresh]
      rintro ⟨-, hmember | hmember⟩ <;> cases hmember
    refine setPeer_sound hsound rfl rfl (fun other ↦ ?_)
      (List.nodup_cons.mpr ⟨habsent, hsound.nodup _⟩) ((hsound.peers conn).up hstate)
      (hsound.inputs conn) (fun _ _ _ ↦ rfl) fun entry hentry ↦
        ⟨hsound.handled _ entry hentry, hsound.waiting _ entry hentry⟩
    rw [List.mem_cons, hsound.members]
    split_ifs with hsame
    · exact iff_of_true (.inl hsame) ⟨congrArg home hsame, .inl rfl⟩
    · simp only [hsame, false_or]
  · exact hsound

theorem down_sound (hsound : Sound net home state) (conn : ℕ) :
    Sound net home (state.down home conn) := by
  unfold State.down
  dsimp only
  split_ifs with henabled
  · obtain ⟨hidle, hmember⟩ := henabled
    refine setPeer_sound hsound rfl rfl (fun other ↦ ?_) ((hsound.nodup _).erase conn)
      (hsound.peers conn).down (hsound.inputs conn) (fun _ _ _ ↦ rfl) fun entry hentry ↦
        ⟨hsound.handled _ entry hentry, hsound.waiting _ entry hentry⟩
    rw [(hsound.nodup _).mem_erase_iff, hsound.members]
    split_ifs with hsame
    · refine iff_of_false (fun hother ↦ hother.1 hsame) ?_
      rintro ⟨-, hdown | hdown⟩ <;> cases hdown
    · simp only [ne_eq, hsame, not_false_eq_true, true_and]
  · exact hsound

theorem read_sound (hsound : Sound net home state) (conn : ℕ) (chunk : Bytes) :
    Sound net home (state.read net home conn chunk) := by
  unfold State.read
  dsimp only
  split_ifs with henabled
  · obtain ⟨hidle, hmember⟩ := henabled
    have hinput := hsound.inputs conn
    rw [hidle.1] at hinput
    have hreceived := receive_concat net (.start net.toNetBuffer)
      (state.peers conn).chunks chunk
    refine setPeer_sound hsound rfl rfl (fun other ↦ ?_) (hsound.nodup _)
      ((hsound.peers conn).read hmember chunk) ?_ (fun other hother hsame ↦ ?_)
      fun entry hentry ↦ ?_
    · rw [hsound.members]
      split_ifs with hsame
      · rw [hsame]
        refine and_congr_right fun _ ↦ iff_of_true hmember ?_
        unfold Peer.Member
        rcases read_state net (state.peers conn) chunk with hkept | ⟨-, hclosing⟩
        · rw [hkept]
          exact hmember
        · exact .inr hclosing
      · exact Iff.rfl
    · rw [sentBy_map, if_pos rfl]
      rw [hinput] at hreceived
      rw [show sentBy conn [] = [] from rfl, List.append_nil] at hreceived
      exact hreceived
    · rw [sentBy_map, if_neg hother.symm, hidle.1]
      rfl
    · obtain ⟨message, hmessage, rfl⟩ := List.mem_map.mp hentry
      exact ⟨rfl, length_le_of_mem_onMessage hmessage⟩
  · exact hsound

theorem sentBy_cons (conn : ℕ) (entry : ℕ × Bytes) (entries : List (ℕ × Bytes)) :
    sentBy conn (entry :: entries) = sentBy conn [entry] ++ sentBy conn entries :=
  sentBy_append conn [entry] entries

theorem sentBy_of_ne {conn : ℕ} {entry : ℕ × Bytes} (hother : entry.1 ≠ conn) :
    sentBy conn [entry] = [] := by
  simp [sentBy, hother]

theorem lock_sound (hsound : Sound net home state) (loop : Fin n) :
    Sound net home (state.lock loop) := by
  unfold State.lock
  split
  · rename_i entry rest hfree hhandling
    have hrest : ∀ other, other ∈ rest → other ∈ (state.loops loop).handling := by
      rw [hhandling]
      exact fun _ ↦ List.mem_cons_of_mem _
    have hentry : entry ∈ (state.loops loop).handling := by
      rw [hhandling]
      exact List.mem_cons_self
    let value : Loop := { state.loops loop with handling := rest }
    have hconnections := loops_of_setLoop state Loop.connections
      (show value.connections = (state.loops loop).connections from rfl)
    have hpendings := loops_of_setLoop state Loop.pending
      (show value.pending = (state.loops loop).pending from rfl)
    have hrans := loops_of_setLoop state Loop.ran
      (show value.ran = (state.loops loop).ran from rfl)
    refine ⟨fun other ↦ ?_, fun held hheld ↦ ?_, fun other conn ↦ ?_, fun other ↦ ?_, fun conn ↦ ?_,
      fun conn ↦ ?_, fun other waiting hwaiting ↦ ?_, fun logged hlogged ↦ ?_,
      fun other waiting hwaiting ↦ ?_⟩
    · have hordered := hsound.ordered other
      rw [State.inHand, hfree, List.append_nil] at hordered
      show ((state.setLoop loop value).loops other).ran ++
        (((state.setLoop loop value).loops other).pending ++
          if other ∈ List.finRange n then [entry.2] else []) = (state.log ++ [entry]).map Prod.snd
      rw [hrans, hpendings, if_pos (List.mem_finRange other),
        ← List.append_assoc, hordered, List.map_append]
      rfl
    · rw [← Option.some.inj hheld]
      exact List.nodup_finRange n
    · show conn ∈ ((state.setLoop loop value).loops other).connections ↔ _
      rw [hconnections]
      exact hsound.members other conn
    · show ((state.setLoop loop value).loops other).connections.Nodup
      rw [hconnections]
      exact hsound.nodup other
    · show PeerSound net ((state.setLoop loop value).loops (home conn)).ran (state.peers conn)
      rw [hrans]
      exact hsound.peers conn
    · show _ = (sentBy conn (state.log ++ [entry]) ++
        sentBy conn ((state.setLoop loop value).loops (home conn)).handling, _)
      rw [setLoop_loops, sentBy_append, List.append_assoc]
      have hinput := hsound.inputs conn
      split_ifs with hloop
      · rw [← sentBy_cons, ← hhandling, ← hloop]
        exact hinput
      · have hother : entry.1 ≠ conn := by
          rintro rfl
          exact hloop (hsound.handled loop entry hentry)
        rw [sentBy_of_ne hother]
        exact hinput
    · have hmem : waiting ∈ ((state.setLoop loop value).loops other).handling := hwaiting
      rw [setLoop_loops] at hmem
      split_ifs at hmem with hloop
      · rw [hloop]
        exact hsound.handled loop waiting (hrest waiting hmem)
      · exact hsound.handled other waiting hmem
    · rcases List.mem_append.mp hlogged with hbefore | hnow
      · exact hsound.short logged hbefore
      · rw [List.mem_singleton.mp hnow]
        exact hsound.waiting loop entry hentry
    · have hmem : waiting ∈ ((state.setLoop loop value).loops other).handling := hwaiting
      rw [setLoop_loops] at hmem
      split_ifs at hmem with hloop
      · exact hsound.waiting loop waiting (hrest waiting hmem)
      · exact hsound.waiting other waiting hmem
  · exact hsound

theorem queueInLoop_sound (hsound : Sound net home state) :
    Sound net home state.queueInLoop := by
  unfold State.queueInLoop
  split
  · exact hsound
  · rename_i held hheld
    split
    · rename_i hremaining
      refine ⟨fun loop ↦ ?_, fun other hother ↦ (nomatch hother), hsound.members, hsound.nodup,
        hsound.peers, hsound.inputs, hsound.handled, hsound.short, hsound.waiting⟩
      have hordered := hsound.ordered loop
      rw [State.inHand, hheld] at hordered
      simp only [hremaining, List.not_mem_nil, if_false] at hordered
      exact hordered
    · rename_i next rest hremaining
      have hdistinct := hsound.distinct held hheld
      rw [hremaining, List.nodup_cons] at hdistinct
      let value : Loop := { state.loops next with
        pending := (state.loops next).pending ++ [held.message] }
      have hconnections := loops_of_setLoop state Loop.connections
        (show value.connections = (state.loops next).connections from rfl)
      have hhandlings := loops_of_setLoop state Loop.handling
        (show value.handling = (state.loops next).handling from rfl)
      have hrans := loops_of_setLoop state Loop.ran
        (show value.ran = (state.loops next).ran from rfl)
      refine ⟨fun loop ↦ ?_, fun other hother ↦ ?_, fun loop conn ↦ ?_, fun loop ↦ ?_,
        fun conn ↦ ?_, fun conn ↦ ?_, fun loop waiting hwaiting ↦ ?_, hsound.short,
        fun loop waiting hwaiting ↦ ?_⟩
      · have hordered := hsound.ordered loop
        rw [State.inHand, hheld] at hordered
        simp only [hremaining] at hordered
        show ((state.setLoop next value).loops loop).ran ++
          (((state.setLoop next value).loops loop).pending ++
            if loop ∈ rest then [held.message] else []) = _
        rw [hrans, setLoop_loops]
        split_ifs with hloop hlater hlater
        · exact (hdistinct.1 (hloop ▸ hlater)).elim
        · rw [if_pos (hloop ▸ List.mem_cons_self)] at hordered
          rw [hloop] at hordered ⊢
          rw [List.append_nil]
          exact hordered
        · rw [if_pos (List.mem_cons_of_mem _ hlater)] at hordered
          exact hordered
        · rw [if_neg (fun hmem ↦ (List.mem_cons.mp hmem).elim hloop hlater)] at hordered
          exact hordered
      · rw [← Option.some.inj hother]
        exact hdistinct.2
      · show conn ∈ ((state.setLoop next value).loops loop).connections ↔ _
        rw [hconnections]
        exact hsound.members loop conn
      · show ((state.setLoop next value).loops loop).connections.Nodup
        rw [hconnections]
        exact hsound.nodup loop
      · show PeerSound net ((state.setLoop next value).loops (home conn)).ran (state.peers conn)
        rw [hrans]
        exact hsound.peers conn
      · show _ = (_ ++ sentBy conn ((state.setLoop next value).loops (home conn)).handling, _)
        rw [hhandlings]
        exact hsound.inputs conn
      · have hmem : waiting ∈ ((state.setLoop next value).loops loop).handling := hwaiting
        rw [hhandlings] at hmem
        exact hsound.handled loop waiting hmem
      · have hmem : waiting ∈ ((state.setLoop next value).loops loop).handling := hwaiting
        rw [hhandlings] at hmem
        exact hsound.waiting loop waiting hmem

theorem send_fields (peer : Peer β) (bytes message : Bytes) :
    (peer.send bytes message).state = peer.state ∧ (peer.send bytes message).input = peer.input ∧
      (peer.send bytes message).chunks = peer.chunks := by
  unfold Peer.send
  split_ifs <;> exact ⟨rfl, rfl, rfl⟩

theorem member_send (peer : Peer β) (bytes message : Bytes) :
    (peer.send bytes message).Member ↔ peer.Member := by
  unfold Peer.Member
  rw [(send_fields peer bytes message).1]

theorem send_of_not_member {peer : Peer β} (hmember : ¬ peer.Member) (bytes message : Bytes) :
    peer.send bytes message = peer :=
  if_neg fun hstate ↦ hmember (.inl hstate)

/-- The state of a loop that has distributed its first pending message. -/
theorem runFunctor_eq (hsound : Sound net home state) {loop : Fin n} (hidle : state.Idle loop)
    {message : Message} {rest : List Bytes}
    (hpending : (state.loops loop).pending = message.bytes :: rest) :
    state.runFunctor net loop = .ok { state.setLoop loop { state.loops loop with
        pending := rest, ran := (state.loops loop).ran ++ [message.bytes] } with
      peers := fun conn ↦ if home conn = loop then
        (state.peers conn).send (wire [message]) message.bytes else state.peers conn } := by
  have hpeers : (fun conn ↦ if conn ∈ (state.loops loop).connections then
      (state.peers conn).send (wire [message]) message.bytes else state.peers conn) =
      fun conn ↦ if home conn = loop then
        (state.peers conn).send (wire [message]) message.bytes else state.peers conn := by
    funext conn
    have hmember := hsound.members loop conn
    by_cases hhome : home conn = loop
    · by_cases hmem : conn ∈ (state.loops loop).connections
      · rw [if_pos hmem, if_pos hhome]
      · have houtside : ¬ (state.peers conn).Member :=
          fun hinside ↦ hmem (hmember.mpr ⟨hhome, hinside⟩)
        rw [if_neg hmem, if_pos hhome, send_of_not_member houtside]
    · rw [if_neg (fun hmem ↦ hhome (hmember.mp hmem).1), if_neg hhome]
  unfold State.runFunctor
  rw [if_pos hidle, hpending]
  dsimp only
  rw [distributeMessage_eq message (hsound.nodup loop), hpeers]

/-- A loop distributes its first pending message without throwing. -/
theorem runFunctor_sound (hsound : Sound net home state) (loop : Fin n) :
    ∃ next, state.runFunctor net loop = .ok next ∧ Sound net home next := by
  by_cases hidle : state.Idle loop
  swap
  · exact ⟨state, if_neg hidle, hsound⟩
  cases hpending : (state.loops loop).pending with
  | nil =>
    refine ⟨state, ?_, hsound⟩
    unfold State.runFunctor
    rw [if_pos hidle, hpending]
  | cons text rest =>
    have hordered := hsound.ordered loop
    rw [hpending] at hordered
    have hlogged : text ∈ state.log.map Prod.snd := by
      rw [← hordered]
      simp
    obtain ⟨entry, hentry, rfl⟩ := List.mem_map.mp hlogged
    have hshort : entry.2.length < 2 ^ 31 := (hsound.short entry hentry).trans_lt (by decide)
    let message : Message := ⟨entry.2, hshort⟩
    have hfirst : (state.loops loop).pending = message.bytes :: rest := hpending
    let value : Loop := { state.loops loop with
      pending := rest, ran := (state.loops loop).ran ++ [message.bytes] }
    have hconnections := loops_of_setLoop state Loop.connections
      (show value.connections = (state.loops loop).connections from rfl)
    have hhandling := loops_of_setLoop state Loop.handling
      (show value.handling = (state.loops loop).handling from rfl)
    refine ⟨_, runFunctor_eq hsound hidle hfirst, fun other ↦ ?_, hsound.distinct,
      fun other conn ↦ ?_, fun other ↦ ?_, fun conn ↦ ?_, fun conn ↦ ?_,
      fun other waiting hwaiting ↦ ?_, hsound.short, fun other waiting hwaiting ↦ ?_⟩
    · show ((state.setLoop loop value).loops other).ran ++
        (((state.setLoop loop value).loops other).pending ++ state.inHand other) =
          state.log.map Prod.snd
      rw [setLoop_loops]
      split_ifs with hloop
      · rw [hloop, ← hordered]
        simp [value, message]
      · exact hsound.ordered other
    · show conn ∈ ((state.setLoop loop value).loops other).connections ↔ _ ∧ Peer.Member (if
        home conn = loop then _ else _)
      rw [hconnections, hsound.members]
      split_ifs
      · rw [member_send]
      · exact Iff.rfl
    · show ((state.setLoop loop value).loops other).connections.Nodup
      rw [hconnections]
      exact hsound.nodup other
    · show PeerSound net ((state.setLoop loop value).loops (home conn)).ran (if
        home conn = loop then _ else _)
      rw [setLoop_loops]
      have hpeer := hsound.peers conn
      split_ifs with hhome
      · rw [hhome] at hpeer
        exact hpeer.send message
      · exact hpeer
    · have hinput := hsound.inputs conn
      show receive net _ (Peer.chunks (if home conn = loop then _ else _)) = (_ ++
        sentBy conn ((state.setLoop loop value).loops (home conn)).handling,
          Peer.input (if home conn = loop then _ else _))
      rw [hhandling]
      split_ifs
      · rw [(send_fields _ _ _).2.1, (send_fields _ _ _).2.2]
        exact hinput
      · exact hinput
    · have hmem : waiting ∈ ((state.setLoop loop value).loops other).handling := hwaiting
      rw [hhandling] at hmem
      exact hsound.handled other waiting hmem
    · have hmem : waiting ∈ ((state.setLoop loop value).loops other).handling := hwaiting
      rw [hhandling] at hmem
      exact hsound.waiting other waiting hmem

/-- No step throws, and every step keeps the server sound. -/
theorem step_sound (hsound : Sound net home state) (action : Action n) :
    ∃ next, step net home state action = .ok next ∧ Sound net home next := by
  cases action with
  | up conn => exact ⟨_, rfl, up_sound hsound conn⟩
  | down conn => exact ⟨_, rfl, down_sound hsound conn⟩
  | read conn chunk => exact ⟨_, rfl, read_sound hsound conn chunk⟩
  | lock loop => exact ⟨_, rfl, lock_sound hsound loop⟩
  | queueInLoop => exact ⟨_, rfl, queueInLoop_sound hsound⟩
  | runFunctor loop => exact runFunctor_sound hsound loop

theorem step_preserves (state : State n β) (action : Action n) (next : State n β)
    (hsound : Sound net home state) (hstep : step net home state action = .ok next) :
    Sound net home next := by
  obtain ⟨other, hother, hkept⟩ := step_sound hsound action
  rw [hother] at hstep
  rwa [← Except.ok.inj hstep]

/-! ### Whole runs -/

theorem reached_sound {actions : List (Action n)} {final : State n β}
    (hrun : run (step net home) (start net n) actions = .ok final) : Sound net home final :=
  run_invariant step_preserves (start_sound n home) hrun

variable (net home) in
theorem exists_reached (actions : List (Action n)) :
    ∃ final, run (step net home) (start net n) actions = .ok final ∧ Sound net home final :=
  have hguarded : Guarded (step net home) (fun _ _ ↦ True) (start net n) actions :=
    guarded_of_forall_mem (fun _ _ ↦ trivial) (start net n)
  hguarded.run_isOk (fun _ action hsound _ ↦ step_sound hsound action) (start_sound n home)

variable (net home) in
/-- Whatever the clients send, the server never throws. -/
theorem run_succeeds (actions : List (Action n)) :
    ∃ final, run (step net home) (start net n) actions = .ok final := by
  obtain ⟨final, hrun, -⟩ := exists_reached net home actions
  exact ⟨final, hrun⟩

/-- The messages of a connection are distributed in the order in which its client sent them, each
once: those that have arrived are first ones of what the client sent, and the last of them may still
wait in the loop. -/
theorem senders_in_order {actions : List (Action n)} {final : State n β} {conn : ℕ}
    {messages : List Message} (hrun : run (step net home) (start net n) actions = .ok final)
    (hchunks : (final.peers conn).chunks.flatten <+: wire messages) :
    sentBy conn final.log ++ sentBy conn (final.loops (home conn)).handling <+:
        messages.map Message.bytes ∧
      ((∀ message ∈ messages, message.bytes.length ≤ 65536) →
        (final.peers conn).chunks.flatten = wire messages →
        (final.loops (home conn)).handling = [] →
        sentBy conn final.log = messages.map Message.bytes) := by
  have hinput : (receive net (.start net.toNetBuffer) (final.peers conn).chunks).1 =
      sentBy conn final.log ++ sentBy conn (final.loops (home conn)).handling :=
    congrArg Prod.fst ((reached_sound hrun).inputs conn)
  refine ⟨hinput ▸ (receive_wire hchunks).1, fun hshort hall hnone ↦ ?_⟩
  rw [receive_all hshort hall, hnone] at hinput
  exact ((List.append_nil _).symm.trans hinput.symm)

/-- A loop that has distributed everything that was logged. -/
def State.Drained (state : State n β) (loop : Fin n) : Prop :=
  (state.loops loop).pending = [] ∧ state.inHand loop = []

/-- The connection has come up when its loop had distributed the given number of messages. -/
def CameUp (conn first : ℕ) (state : State n β) : Prop :=
  (state.peers conn).state ≠ .connecting ∧ (state.peers conn).since = first

theorem sendAll_kept {framed : Option β} {message : Bytes} {conns : List ℕ} :
    ∀ {peers after : ℕ → Peer β}, sendAll net framed message conns peers = .ok after →
      ∀ conn, (after conn).state = (peers conn).state ∧
        (after conn).since = (peers conn).since := by
  induction conns with
  | nil =>
    intro peers after hsend conn
    cases hsend
    exact ⟨rfl, rfl⟩
  | cons first conns ih =>
    intro peers after hsend conn
    cases framed with
    | none => cases hsend
    | some buf =>
      rw [sendAll] at hsend
      obtain ⟨hstate, hsince⟩ := ih hsend conn
      rw [hstate, hsince]
      by_cases hsame : conn = first
      · rw [hsame, Function.update_self]
        unfold Peer.send
        split_ifs <;> exact ⟨rfl, rfl⟩
      · rw [Function.update_of_ne hsame]
        exact ⟨rfl, rfl⟩

theorem runFunctor_kept {next : State n β} {loop : Fin n}
    (hstep : state.runFunctor net loop = .ok next) (conn : ℕ) :
    (next.peers conn).state = (state.peers conn).state ∧
      (next.peers conn).since = (state.peers conn).since := by
  unfold State.runFunctor at hstep
  split_ifs at hstep
  · split at hstep
    · cases hstep
      exact ⟨rfl, rfl⟩
    · split at hstep
      · cases hstep
      · rename_i peers hsend
        cases hstep
        exact sendAll_kept hsend conn
  · cases hstep
    exact ⟨rfl, rfl⟩

/-- A connection comes up once. -/
theorem step_cameUp {next : State n β} {action : Action n} {conn first : ℕ}
    (hbefore : CameUp conn first state) (hstep : step net home state action = .ok next) :
    CameUp conn first next := by
  obtain ⟨hstate, hsince⟩ := hbefore
  cases action with
  | up other =>
    cases hstep
    show CameUp conn first (state.up home other)
    unfold State.up
    dsimp only
    split_ifs with henabled
    · have hother : conn ≠ other := by
        rintro rfl
        exact hstate henabled.2
      unfold CameUp
      rw [setPeer_peers, if_neg hother]
      exact ⟨hstate, hsince⟩
    · exact ⟨hstate, hsince⟩
  | down other =>
    cases hstep
    show CameUp conn first (state.down home other)
    unfold State.down
    dsimp only
    split_ifs with henabled
    · unfold CameUp
      rw [setPeer_peers]
      split_ifs with hsame
      · exact ⟨fun hdown ↦ (nomatch hdown), hsame ▸ hsince⟩
      · exact ⟨hstate, hsince⟩
    · exact ⟨hstate, hsince⟩
  | read other chunk =>
    cases hstep
    show CameUp conn first (state.read net home other chunk)
    unfold State.read
    dsimp only
    split_ifs with henabled
    · unfold CameUp
      rw [setPeer_peers]
      split_ifs with hsame
      · subst hsame
        refine ⟨?_, hsince⟩
        rcases read_state net (state.peers conn) chunk with hkept | ⟨-, hclosing⟩
        · exact fun hafter ↦ hstate (hkept.symm.trans hafter)
        · exact fun hafter ↦ nomatch hclosing.symm.trans hafter
      · exact ⟨hstate, hsince⟩
    · exact ⟨hstate, hsince⟩
  | lock loop =>
    cases hstep
    show CameUp conn first (state.lock loop)
    unfold State.lock
    split <;> exact ⟨hstate, hsince⟩
  | queueInLoop =>
    cases hstep
    show CameUp conn first state.queueInLoop
    unfold State.queueInLoop
    split
    · exact ⟨hstate, hsince⟩
    · split <;> exact ⟨hstate, hsince⟩
  | runFunctor loop =>
    obtain ⟨hstates, hsinces⟩ := runFunctor_kept hstep conn
    unfold CameUp
    rw [hstates, hsinces]
    exact ⟨hstate, hsince⟩

theorem ran_isPrefix (hsound : Sound net home state) (loop : Fin n) :
    (state.loops loop).ran <+: state.log.map Prod.snd :=
  ⟨_, hsound.ordered loop⟩

/-- There is one sequence of messages, the log, of which every connection receives a segment without
gaps: it begins at a place that was logged when the connection came up, and reaches to the end of
the log if the connection is open and its loop has nothing left to distribute. -/
theorem broadcast_total_order {earlier later : List (Action n)} {state final : State n β}
    {conn : ℕ} (hearlier : run (step net home) (start net n) earlier = .ok state)
    (hup : (state.peers conn).state ≠ .connecting)
    (hlater : run (step net home) state later = .ok final) :
    ∃ first, first ≤ state.log.length ∧
      (final.peers conn).delivered <+: (final.log.map Prod.snd).drop first ∧
      ((final.peers conn).state = .connected → final.Drained (home conn) →
        (final.peers conn).delivered = (final.log.map Prod.snd).drop first) := by
  have hbefore := reached_sound hearlier
  have hfinal : Sound net home final := run_invariant step_preserves hbefore hlater
  obtain ⟨-, hsince⟩ : CameUp conn (state.peers conn).since final :=
    run_invariant (fun _ _ _ hcame hstep ↦ step_cameUp hcame hstep) ⟨hup, rfl⟩ hlater
  have hpeer := hfinal.peers conn
  refine ⟨(state.peers conn).since, ?_, ?_, fun hopen hdrained ↦ ?_⟩
  · have hlength := (ran_isPrefix hbefore (home conn)).length_le
    rw [List.length_map] at hlength
    exact (hbefore.peers conn).since_le.trans hlength
  · rw [← hsince]
    exact hpeer.segment.trans ((ran_isPrefix hfinal (home conn)).drop _)
  · have hordered := hfinal.ordered (home conn)
    rw [hdrained.1, hdrained.2, List.append_nil, List.append_nil] at hordered
    rw [← hsince, ← hordered]
    exact hpeer.connected hopen

/-- A client that gets a part of the bytes that the server sent it, in any chunks, delivers first
ones of the messages that were distributed to it, all of them when all bytes have arrived, and never
closes the connection for an invalid length. -/
theorem clients_receive {actions : List (Action n)} {final : State n β} {conn : ℕ}
    {chunks : List Bytes} (hrun : run (step net home) (start net n) actions = .ok final)
    (hchunks : chunks.flatten <+: (final.peers conn).output) :
    (receive net (.start net.toNetBuffer) chunks).2.shutdowns = 0 ∧
      (receive net (.start net.toNetBuffer) chunks).1 <+: (final.peers conn).delivered ∧
      (chunks.flatten = (final.peers conn).output →
        (receive net (.start net.toNetBuffer) chunks).1 = (final.peers conn).delivered) := by
  have hsound := reached_sound hrun
  obtain ⟨messages, hmessages, houtput⟩ := (hsound.peers conn).output
  have hlogged : ∀ text ∈ (final.peers conn).delivered, text.length ≤ 65536 := by
    intro text htext
    have hran := List.mem_of_mem_drop ((hsound.peers conn).segment.subset htext)
    obtain ⟨entry, hentry, rfl⟩ := List.mem_map.mp ((ran_isPrefix hsound (home conn)).subset hran)
    exact hsound.short entry hentry
  have hshort : ∀ message ∈ messages, message.bytes.length ≤ 65536 := by
    rw [← hmessages] at hlogged
    exact fun message hmessage ↦ hlogged _ (List.mem_map_of_mem hmessage)
  rw [houtput] at hchunks ⊢
  rw [← hmessages]
  exact ⟨(receive_accepted hshort hchunks).1, (receive_wire hchunks).1,
    fun hall ↦ receive_all hshort hall⟩

end Server

/-! ### A message between two clients -/

/-- The first connection lives in one loop, all others in another one. -/
def twoLoops (conn : ℕ) : Fin 2 := if conn = 0 then 0 else 1

def hello : Message := ⟨ascii "hello", by decide⟩

/-- A message arrives on the first connection. -/
theorem senders_in_order_hello : ∃ final,
    run (step .ofBytes twoLoops) (start .ofBytes 2) [.up 0, .up 1, .read 0 (wire [hello])] =
      .ok final ∧
    sentBy 0 final.log ++ sentBy 0 (final.loops 0).handling <+: [hello.bytes] ∧
    ((∀ message ∈ [hello], message.bytes.length ≤ 65536) →
      (final.peers 0).chunks.flatten = wire [hello] → (final.loops 0).handling = [] →
        sentBy 0 final.log = [hello.bytes]) := by
  have hreached : ∃ final, run (step .ofBytes twoLoops) (start .ofBytes 2)
      [.up 0, .up 1, .read 0 (wire [hello])] = .ok final ∧
      (final.peers 0).chunks = [wire [hello]] :=
    ⟨_, rfl, rfl⟩
  obtain ⟨final, hrun, hchunks⟩ := hreached
  have hprefix : (final.peers 0).chunks.flatten <+: wire [hello] := by
    rw [hchunks]
    simp
  exact ⟨final, hrun, senders_in_order hrun hprefix⟩

/-- It is queued in both loops, and both distribute it. -/
def distributing : List (Action 2) :=
  [.read 0 (wire [hello]), .lock 0, .queueInLoop, .queueInLoop, .queueInLoop, .runFunctor 0,
    .runFunctor 1]

theorem broadcast_total_order_hello : ∃ state final,
    run (step .ofBytes twoLoops) (start .ofBytes 2) [.up 0, .up 1] = .ok state ∧
    run (step .ofBytes twoLoops) state distributing = .ok final ∧
    ∃ first, first ≤ state.log.length ∧
      (final.peers 1).delivered <+: (final.log.map Prod.snd).drop first ∧
      ((final.peers 1).state = .connected → final.Drained 1 →
        (final.peers 1).delivered = (final.log.map Prod.snd).drop first) := by
  obtain ⟨final, hrun, -⟩ := exists_reached .ofBytes twoLoops ([.up 0, .up 1] ++ distributing)
  obtain ⟨state, hearlier, hlater⟩ := run_append_eq_ok_iff.mp hrun
  have hup : (state.peers 1).state ≠ .connecting := by
    cases hearlier
    decide
  exact ⟨state, final, hearlier, hlater, broadcast_total_order hearlier hup hlater⟩

theorem clients_receive_hello : ∃ final,
    run (step .ofBytes twoLoops) (start .ofBytes 2) ([.up 0, .up 1] ++ distributing) = .ok final ∧
    (receive .ofBytes (.start PrependBuffer.ofBytes.toNetBuffer)
      [(final.peers 1).output]).2.shutdowns = 0 ∧
    (receive .ofBytes (.start PrependBuffer.ofBytes.toNetBuffer)
      [(final.peers 1).output]).1 <+: (final.peers 1).delivered ∧
    ([(final.peers 1).output].flatten = (final.peers 1).output →
      (receive .ofBytes (.start PrependBuffer.ofBytes.toNetBuffer)
        [(final.peers 1).output]).1 = (final.peers 1).delivered) := by
  obtain ⟨final, hrun, -⟩ := exists_reached .ofBytes twoLoops ([.up 0, .up 1] ++ distributing)
  have hprefix : [(final.peers 1).output].flatten <+: (final.peers 1).output := by simp
  exact ⟨final, hrun, clients_receive hrun hprefix⟩

end TradeServers.Chat
