import TradeServers.QuoteClient.Windows
import TradeServers.Library.DistinctQueue
import TradeServers.Library.Execution
import Mathlib.Data.Finset.Max

/-!
# The pipeline of the quote client

Ticks arrive on two upstream connections and wait in a buffer. Workers take them out, update the
windows of their instruments and queue a result for each; one thread sends the results to all
connections that have logged in. A step of this model is what a thread does between taking one lock
and taking the next, so a run is an interleaving of the threads.

The guards of `dealMessage` are not released where its comments say. `tickMutex` is held to the end
of the loop body, `mapMutex` and `resMutex` until the result is queued, and `loopSend` holds
`resMutex` while it sends. A thread that finds a lock taken waits: its step leaves the state as it
is.
-/

set_option autoImplicit false
set_option relaxedAutoImplicit false

namespace TradeServers.QuoteClient

open Execution

/-! ### The threads and what they share -/

/-- `maxSize`. -/
def maxSize : ℕ := 5000

/-- The two upstream connections. -/
inductive Feed
  | client1
  | client2
deriving DecidableEq

/-- `resStruct`. -/
structure ResStruct where
  exchange : Bytes
  comodity : Bytes
  contractNo : Bytes
  resStr : Bytes
deriving DecidableEq

/-- Where a worker is in `dealMessage`: outside its locks, with a tick that it popped, or with the
result of the tick. -/
inductive Phase
  | idle
  | popped (itFront : Bytes)
  | updated (itFront : Bytes) (res : ResStruct)
deriving DecidableEq

/-- The local variables of a worker that live on from tick to tick: the unread part of `ss`, and
`resStr`. -/
structure Worker where
  phase : Phase
  stream : Bytes
  resStr : Bytes

/-- Where `loopSend` is: outside its lock, or with a result before the connection that its iterator
points to. `⊤` is `checkConns_.end()`. -/
inductive Sender
  | idle
  | sending (res : ResStruct) (iterator : WithTop ℕ)
deriving DecidableEq

/-- The shared state, the locks and the threads, with a history: the quotes that came in, the
bodies that were accepted into the buffer and those that left it, the bodies whose windows were
updated, the results that were queued with their bodies, those taken from the queue, and what was
sent. A connection is the address of its object, by which `checkConns_` is ordered. -/
structure State (Double : Type) where
  tickSet : Finset Bytes
  tickList : List Bytes
  queueMap : QueueMap Double
  resQue : List ResStruct
  connections : Finset ℕ
  checkConns : Finset ℕ
  tickMutex : Option ℕ
  mapMutex : Option ℕ
  workers : ℕ → Worker
  sender : Sender
  quotes : List (Feed × Bytes)
  accepted : List Bytes
  departed : List (Departure Bytes)
  updated : List Bytes
  pushed : List (Bytes × ResStruct)
  popped : List ResStruct
  sent : List (ℕ × ResStruct)

/-- A message of an upstream connection, the three parts of a round of `dealMessage`, the two parts
of a round of `loopSend`, and what happens to a connection of the server. -/
inductive Event
  | quote (feed : Feed) (message : Bytes)
  | takeTick (worker : ℕ)
  | updateWindows (worker : ℕ)
  | pushResult (worker : ℕ)
  | popResult
  | sendNext
  | connection (connection : ℕ) (connected : Bool)
  | message (connection : ℕ) (message : Bytes)

section Pipeline

variable {Double : Type}

/-- Nothing has arrived yet. -/
def initial : State Double where
  tickSet := ∅
  tickList := []
  queueMap := fun _ ↦ none
  resQue := []
  connections := ∅
  checkConns := ∅
  tickMutex := none
  mapMutex := none
  workers := fun _ ↦ ⟨.idle, [], []⟩
  sender := .idle
  quotes := []
  accepted := []
  departed := []
  updated := []
  pushed := []
  popped := []
  sent := []

/-! ### The tick buffer -/

/-- The front of the buffer leaves it. -/
def State.popFront (state : State Double) (front : Bytes) (rest : List Bytes) (taken : Bool) :
    State Double :=
  { state with
    tickList := rest
    tickSet := state.tickSet.erase front
    departed := state.departed ++ [⟨front, rest, taken⟩] }

/-- The body is inserted unless it is waiting. -/
def State.insertTick (state : State Double) (body : Bytes) : State Double :=
  if body ∈ state.tickSet then state
  else
    { state with
      tickSet := insert body state.tickSet
      tickList := state.tickList ++ [body]
      accepted := state.accepted ++ [body] }

/-- The critical section of `quoteClient::onStringMessage`. -/
def State.offer (state : State Double) (feed : Feed) (body : Bytes) : State Double :=
  let inserted := State.insertTick { state with quotes := state.quotes ++ [(feed, body)] } body
  match inserted.tickList with
  | [] => inserted
  | front :: rest =>
    if maxSize < inserted.tickList.length then inserted.popFront front rest false else inserted

/-- A quote changes the buffer and nothing else. -/
theorem offer_frame (state : State Double) (feed : Feed) (body : Bytes) :
    ∃ tickSet tickList accepted departed, state.offer feed body =
      { state with
        quotes := state.quotes ++ [(feed, body)]
        tickSet := tickSet
        tickList := tickList
        accepted := accepted
        departed := departed } := by
  have hinserted : ∃ tickSet tickList accepted,
      State.insertTick { state with quotes := state.quotes ++ [(feed, body)] } body =
        { state with
          quotes := state.quotes ++ [(feed, body)]
          tickSet := tickSet
          tickList := tickList
          accepted := accepted } := by
    unfold State.insertTick
    split_ifs <;> exact ⟨_, _, _, rfl⟩
  obtain ⟨tickSet, tickList, accepted, hinserted⟩ := hinserted
  unfold State.offer
  rw [hinserted]
  cases tickList with
  | nil => exact ⟨_, _, _, _, rfl⟩
  | cons front rest =>
    dsimp only
    split_ifs <;> exact ⟨_, _, _, _, rfl⟩

/-- `quoteClient::onStringMessage`. -/
def State.quote (state : State Double) (feed : Feed) (message : Bytes) : State Double :=
  match quoteOf message with
  | none => state
  | some body => if state.tickMutex = none then state.offer feed body else state

/-! ### A round of `dealMessage` -/

/-- The worker has popped a tick and keeps `tickMutex`. -/
def State.takeFront (state : State Double) (worker : ℕ) (front : Bytes) (rest : List Bytes) :
    State Double :=
  { state.popFront front rest true with
    tickMutex := some worker
    workers := Function.update state.workers worker
      { state.workers worker with phase := .popped front } }

/-- The worker locks `tickMutex`, which it releases again when there is no tick. -/
def State.takeTick (workers : ℕ) (state : State Double) (worker : ℕ) : State Double :=
  if worker < workers ∧ (state.workers worker).phase = .idle ∧ state.tickMutex = none then
    match state.tickList with
    | [] => state
    | front :: rest =>
      if state.tickSet = ∅ then state else state.takeFront worker front rest
  else state

variable (platform : Platform Double)

/-- What is written to `ss` for a tick. -/
def resLine (tick : Tick Double) (changes : Changes Double) : Bytes :=
  tick.comodity ++ [bar] ++ tick.contractNo ++ [bar] ++ tick.exchange ++ [bar] ++
    platform.general changes.change1 ++ [bar] ++ platform.general changes.change3 ++ [bar] ++
    platform.general changes.change5

/-- `resStr` and the unread part of `ss` after the result of a tick was written and read: it comes
behind what is left in `ss`, and `resStr` is the next word. -/
def Worker.readResult (worker : Worker) (tick : Tick Double) (changes : Changes Double) :
    Bytes × Bytes :=
  readWord (worker.stream ++ resLine platform tick changes) worker.resStr

/-- The result of a tick. -/
def Worker.res (worker : Worker) (tick : Tick Double) (changes : Changes Double) : ResStruct :=
  ⟨tick.exchange, tick.comodity, tick.contractNo, (worker.readResult platform tick changes).1⟩

/-- The worker with the result of its tick. -/
def Worker.makeResult (worker : Worker) (itFront : Bytes) (tick : Tick Double)
    (changes : Changes Double) : Worker where
  phase := .updated itFront (worker.res platform tick changes)
  stream := (worker.readResult platform tick changes).2
  resStr := (worker.readResult platform tick changes).1

/-- The worker updates the windows of its tick and makes the result, with `mapMutex` locked. -/
def State.update (state : State Double) (worker : ℕ) (itFront : Bytes) (tick : Tick Double) :
    State Double :=
  let windows := updateWindows platform state.queueMap tick
  { state with
    queueMap := windows.1
    mapMutex := some worker
    updated := state.updated ++ [itFront]
    workers := Function.update state.workers worker
      ((state.workers worker).makeResult platform itFront tick windows.2) }

/-- The worker parses its tick and locks `mapMutex`. -/
def State.updateWindows (state : State Double) (worker : ℕ) : Except Fault (State Double) :=
  match (state.workers worker).phase with
  | .popped itFront =>
    match parseTick platform itFront with
    | .error fault => .error fault
    | .ok tick =>
      if state.mapMutex = none then .ok (state.update platform worker itFront tick) else .ok state
  | _ => .ok state

/-- The result is queued, and the worker releases its locks. -/
def State.push (state : State Double) (worker : ℕ) (itFront : Bytes) (res : ResStruct) :
    State Double :=
  { state with
    resQue := state.resQue ++ [res]
    tickMutex := none
    mapMutex := none
    pushed := state.pushed ++ [(itFront, res)]
    workers := Function.update state.workers worker
      { state.workers worker with phase := .idle } }

/-- The worker locks `resMutex`, which `loopSend` holds while it sends. -/
def State.pushResult (state : State Double) (worker : ℕ) : State Double :=
  match (state.workers worker).phase with
  | .updated itFront res =>
    if state.sender = .idle then state.push worker itFront res else state
  | _ => state

/-! ### A round of `loopSend` -/

/-- A result is taken from the queue, and the iterator starts at `checkConns_.begin()`. -/
def State.beginSending (state : State Double) (res : ResStruct) (rest : List ResStruct) :
    State Double :=
  { state with
    resQue := rest
    sender := .sending res state.checkConns.min
    popped := state.popped ++ [res] }

/-- `loopSend` locks `resMutex`, which it releases again when there is no result. -/
def State.popResult (state : State Double) : State Double :=
  match state.sender, state.resQue with
  | .idle, res :: rest => state.beginSending res rest
  | _, _ => state

/-- `++it`: the next connection in `checkConns_`, as it is now. -/
def State.following (state : State Double) (connection : ℕ) : WithTop ℕ :=
  (state.checkConns.filter fun other ↦ connection < other).min

/-- A result is sent to the connection that the iterator points to, and the iterator moves on. -/
def State.sendTo (state : State Double) (res : ResStruct) (connection : ℕ) : State Double :=
  { state with
    sender := .sending res (state.following connection)
    sent := state.sent ++ [(connection, res)] }

/-- `loopSend` goes on with its result, and releases `resMutex` at the end. -/
def State.sendNext (state : State Double) : State Double :=
  match state.sender with
  | .idle => state
  | .sending _ none => { state with sender := .idle }
  | .sending res (some connection) => state.sendTo res connection

/-! ### The server's connections -/

/-- `QuoteServer::onConnection`. -/
def State.onConnection (state : State Double) (connection : ℕ) (connected : Bool) : State Double :=
  { state with
    connections :=
      if connected then insert connection state.connections
      else state.connections.erase connection }

/-- `QuoteServer::onStringMessage`. -/
def State.onStringMessage (state : State Double) (connection : ℕ) (message : Bytes) :
    State Double :=
  if IsLogin message then { state with checkConns := insert connection state.checkConns } else state

/-- The effect of an event. -/
def step (workers : ℕ) (state : State Double) : Event → Except Fault (State Double)
  | .quote feed message => .ok (state.quote feed message)
  | .takeTick worker => .ok (state.takeTick workers worker)
  | .updateWindows worker => state.updateWindows platform worker
  | .pushResult worker => .ok (state.pushResult worker)
  | .popResult => .ok state.popResult
  | .sendNext => .ok state.sendNext
  | .connection connection connected => .ok (state.onConnection connection connected)
  | .message connection message => .ok (state.onStringMessage connection message)

/-! ### What a step can do -/

/-- The effects of the events that find what they need, with the conditions under which they do. -/
inductive Move (workers : ℕ) : State Double → Event → State Double → Prop
  | quote {state : State Double} (feed : Feed) (message body : Bytes)
      (hbody : quoteOf message = some body) (hfree : state.tickMutex = none) :
      Move workers state (.quote feed message) (state.offer feed body)
  | takeTick {state : State Double} (worker : ℕ) (front : Bytes) (rest : List Bytes)
      (hworker : worker < workers) (hidle : (state.workers worker).phase = .idle)
      (hfree : state.tickMutex = none) (hlist : state.tickList = front :: rest) :
      Move workers state (.takeTick worker) (state.takeFront worker front rest)
  | updateWindows {state : State Double} (worker : ℕ) (itFront : Bytes) (tick : Tick Double)
      (hphase : (state.workers worker).phase = .popped itFront) (hfree : state.mapMutex = none)
      (hparse : parseTick platform itFront = .ok tick) :
      Move workers state (.updateWindows worker) (state.update platform worker itFront tick)
  | pushResult {state : State Double} (worker : ℕ) (itFront : Bytes) (res : ResStruct)
      (hphase : (state.workers worker).phase = .updated itFront res)
      (hsender : state.sender = .idle) :
      Move workers state (.pushResult worker) (state.push worker itFront res)
  | popResult {state : State Double} (res : ResStruct) (rest : List ResStruct)
      (hsender : state.sender = .idle) (hresQue : state.resQue = res :: rest) :
      Move workers state .popResult (state.beginSending res rest)
  | send {state : State Double} (res : ResStruct) (connection : ℕ)
      (hsender : state.sender = .sending res connection) :
      Move workers state .sendNext (state.sendTo res connection)
  | finish {state : State Double} (res : ResStruct) (hsender : state.sender = .sending res ⊤) :
      Move workers state .sendNext { state with sender := .idle }
  | connection {state : State Double} (connection : ℕ) (connected : Bool) :
      Move workers state (.connection connection connected)
        (state.onConnection connection connected)
  | login {state : State Double} (connection : ℕ) (message : Bytes) (hlogin : IsLogin message) :
      Move workers state (.message connection message)
        { state with checkConns := insert connection state.checkConns }

section Moves

variable {workers : ℕ} {state next : State Double}

theorem move_of_takeTick (worker : ℕ) :
    state.takeTick workers worker = state ∨
      Move platform workers state (.takeTick worker) (state.takeTick workers worker) := by
  unfold State.takeTick
  by_cases hready : worker < workers ∧ (state.workers worker).phase = .idle ∧ state.tickMutex = none
  · rw [if_pos hready]
    cases hlist : state.tickList with
    | nil => exact .inl rfl
    | cons front rest =>
      dsimp only
      split_ifs
      · exact .inl rfl
      · exact .inr (.takeTick worker front rest hready.1 hready.2.1 hready.2.2 hlist)
  · exact .inl (if_neg hready)

theorem move_of_updateWindows {worker : ℕ}
    (hupdate : state.updateWindows platform worker = .ok next) :
    next = state ∨ Move platform workers state (.updateWindows worker) next := by
  unfold State.updateWindows at hupdate
  cases hphase : (state.workers worker).phase with
  | popped itFront =>
    rw [hphase] at hupdate
    dsimp only at hupdate
    cases hparse : parseTick platform itFront with
    | error fault =>
      rw [hparse] at hupdate
      cases hupdate
    | ok tick =>
      rw [hparse] at hupdate
      dsimp only at hupdate
      split_ifs at hupdate with hfree
      · obtain rfl := Except.ok.inj hupdate
        exact .inr (.updateWindows worker itFront tick hphase hfree hparse)
      · exact .inl (Except.ok.inj hupdate).symm
  | _ =>
    rw [hphase] at hupdate
    exact .inl (Except.ok.inj hupdate).symm

theorem move_of_popResult :
    state.popResult = state ∨ Move platform workers state .popResult state.popResult := by
  unfold State.popResult
  cases hsender : state.sender with
  | idle =>
    cases hresQue : state.resQue with
    | nil => exact .inl rfl
    | cons res rest => exact .inr (.popResult res rest hsender hresQue)
  | sending res iterator => exact .inl rfl

theorem move_of_sendNext :
    state.sendNext = state ∨ Move platform workers state .sendNext state.sendNext := by
  unfold State.sendNext
  cases hsender : state.sender with
  | idle => exact .inl rfl
  | sending res iterator =>
    cases iterator with
    | top => exact .inr (.finish res hsender)
    | coe connection => exact .inr (.send res connection hsender)

/-- A step is a move, or it waits and leaves the state as it is. -/
theorem move_of_step {event : Event} (hstep : step platform workers state event = .ok next) :
    next = state ∨ Move platform workers state event next := by
  cases event with
  | quote feed message =>
    obtain rfl := Except.ok.inj hstep
    unfold State.quote
    cases hbody : quoteOf message with
    | none => exact .inl rfl
    | some body =>
      dsimp only
      split_ifs with hfree
      · exact .inr (.quote feed message body hbody hfree)
      · exact .inl rfl
  | takeTick worker =>
    obtain rfl := Except.ok.inj hstep
    exact move_of_takeTick platform worker
  | updateWindows worker => exact move_of_updateWindows platform hstep
  | pushResult worker =>
    obtain rfl := Except.ok.inj hstep
    unfold State.pushResult
    cases hphase : (state.workers worker).phase with
    | updated itFront res =>
      dsimp only
      split_ifs with hsender
      · exact .inr (.pushResult worker itFront res hphase hsender)
      · exact .inl rfl
    | _ => exact .inl rfl
  | popResult =>
    obtain rfl := Except.ok.inj hstep
    exact move_of_popResult platform
  | sendNext =>
    obtain rfl := Except.ok.inj hstep
    exact move_of_sendNext platform
  | connection connection connected =>
    obtain rfl := Except.ok.inj hstep
    exact .inr (.connection connection connected)
  | message connection message =>
    obtain rfl := Except.ok.inj hstep
    unfold State.onStringMessage
    split_ifs with hlogin
    · exact .inr (.login connection message hlogin)
    · exact .inl rfl

/-- What every move preserves holds at the end of every run. -/
theorem run_invariant_of_move {good : State Double → Prop}
    (hmove : ∀ {state next : State Double} {event : Event}, good state →
      Move platform workers state event next → good next)
    {events : List Event} {final : State Double} (hgood : good state)
    (hrun : run (step platform workers) state events = .ok final) : good final := by
  refine run_invariant (fun state event next hnow hstep ↦ ?_) hgood hrun
  rcases move_of_step platform hstep with rfl | hmoved
  · exact hnow
  · exact hmove hnow hmoved

end Moves

end Pipeline

/-- The run in which the first quote comes in. -/
theorem run_first_quote :
    run (step Platform.exact 2) initial [.quote .client1 (quoteMessage (ascii "a"))] =
      .ok ((initial : State ℚ).quote .client1 (quoteMessage (ascii "a"))) := rfl

end TradeServers.QuoteClient
