import TradeServers.LogTimeServer.Stream
import TradeServers.LogTimeServer.Replies
import TradeServers.LogTimeServer.Workers

/-!
# Connections and the messages they carry

The whole path of a message: a chunk of bytes arrives on a connection, the codec cuts it, every
message is queued, and a worker deals with it. After a message with an unknown command the server
takes the connection out of `connections_` and closes its write side, and nothing on the path of a
message asks for either. `step_forget` says that connections matter only for the bytes they bring,
and `late_uploads_unchanged_iff` which uploads change the database after such a message.
-/

set_option autoImplicit false
set_option relaxedAutoImplicit false

namespace TradeServers.LogTimeServer.Sessions

open Execution SqlLiteral Workers

/-! ### The server -/

/-- A queued task. `late` tells that a message with an unknown command had been dealt with on its
connection before it arrived. -/
structure Posted where
  task : Task
  late : Bool

/-- The server with its connections: `connections` is `connections_`, `shut` are the connections
whose write side is closed, and `buffers` are their receive buffers. The queue, the workers and the
database are those of `Workers.State`. On the connections in `violated` a message with an unknown
command was dealt with. -/
structure State (σ β : Type) where
  connections : List ℕ
  shut : List ℕ
  violated : List ℕ
  buffers : ℕ → β
  arrived : List Posted
  queue : List Posted
  taken : List (ℕ × Posted)
  executed : List (Posted × Answers)
  sent : List (ℕ × Message)
  db : σ

/-- A connection comes up or goes down, a chunk of bytes arrives on one, a worker takes a task, or a
worker deals with the task it holds. -/
inductive Event
  | up (connection : ℕ)
  | down (connection : ℕ)
  | receive (connection : ℕ) (chunk : Bytes)
  | take (worker : ℕ)
  | execute (worker : ℕ) (answers : Answers)

section Server

variable {σ β : Type} (server : MysqlServer σ) (net : NetBuffer β) (workers : ℕ)

/-- No connection is there yet. -/
def start (db : σ) : State σ β := ⟨[], [], [], fun _ ↦ net.empty, [], [], [], [], [], db⟩

/-- `comServer::onConnection`. -/
def State.onConnection (state : State σ β) (connection : ℕ) (connected : Bool) : State σ β :=
  if connected then { state with connections := state.connections.insert connection }
  else
    { state with
      connections := state.connections.erase connection
      shut := connection :: state.shut }

/-- The task for a message that arrives on a connection. -/
def State.posted (state : State σ β) (connection : ℕ) (msg : Bytes) : Posted :=
  ⟨⟨connection, msg⟩, connection ∈ state.violated⟩

/-- `comServer::onStringMessage` for the messages that one chunk completes. -/
def State.post (state : State σ β) (connection : ℕ) (messages : List Bytes) : State σ β :=
  let posted := messages.map (state.posted connection)
  { state with arrived := state.arrived ++ posted, queue := state.queue ++ posted }

/-- A chunk is appended to the buffer of its connection, and the codec cuts the buffer. -/
def State.receive (state : State σ β) (connection : ℕ) (chunk : Bytes) : State σ β :=
  let cut := onMessage net (net.append (state.buffers connection) chunk)
  State.post { state with buffers := Function.update state.buffers connection cut.2 } connection
    cut.1

/-- `ThreadPool::take` by an idle worker. -/
def State.take (state : State σ β) (worker : ℕ) : State σ β :=
  if worker < workers ∧ ∀ entry ∈ state.taken, entry.1 ≠ worker then
    match state.queue with
    | [] => state
    | front :: rest => { state with queue := rest, taken := state.taken ++ [(worker, front)] }
  else state

/-- The task that a worker holds. -/
def State.held (state : State σ β) (worker : ℕ) : Option Posted :=
  (state.taken.find? fun entry ↦ entry.1 = worker).map Prod.snd

/-- What a message makes the server do to its connection. A closed write side sends nothing. -/
def State.act (state : State σ β) (connection : ℕ) : Action → State σ β
  | .silent => state
  | .reply message =>
    if connection ∈ state.shut then state
    else { state with sent := state.sent ++ [(connection, message)] }
  | .disconnect =>
    { state with
      connections := state.connections.erase connection
      shut := connection :: state.shut
      violated := connection :: state.violated }

/-- A worker runs `dealMessage` on the task it holds, if it holds one. -/
def execute (state : State σ β) (worker : ℕ) (answers : Answers) : Except Fault (State σ β) :=
  match state.held worker with
  | none => .ok state
  | some posted =>
    match dealMessage server answers state.db posted.task.msg with
    | .error fault => .error fault
    | .ok (next, action) =>
      .ok (State.act
        { state with
          taken := state.taken.eraseP fun entry ↦ entry.1 = worker
          executed := state.executed ++ [(posted, answers)]
          db := next } posted.task.connection action)

/-- The effect of an event. -/
def step (state : State σ β) : Event → Except Fault (State σ β)
  | .up connection => .ok (state.onConnection connection true)
  | .down connection => .ok (state.onConnection connection false)
  | .receive connection chunk => .ok (state.receive net connection chunk)
  | .take worker => .ok (state.take workers worker)
  | .execute worker answers => execute server state worker answers

/-! ### The workers behind the connections -/

/-- The queue, the workers and the database, without the connections. -/
def State.forget (state : State σ β) : Workers.State σ where
  arrived := state.arrived.map Posted.task
  queue := state.queue.map Posted.task
  taken := state.taken.map fun entry ↦ (entry.1, entry.2.task)
  executed := state.executed.map fun entry ↦ (entry.1.task, entry.2)
  db := state.db

/-- What an event is to the workers: a chunk brings the messages it completes. -/
def workerEvents (state : State σ β) : Event → List Workers.Event
  | .up _ => []
  | .down _ => []
  | .receive connection chunk =>
    (onMessage net (net.append (state.buffers connection) chunk)).1.map fun msg ↦
      .arrive ⟨connection, msg⟩
  | .take worker => [.take worker]
  | .execute worker answers => [.execute worker answers]

theorem forget_act (state : State σ β) (connection : ℕ) (action : Action) :
    (state.act connection action).forget = state.forget := by
  unfold State.act
  cases action with
  | silent => rfl
  | reply message =>
    dsimp only
    split_ifs <;> rfl
  | disconnect => rfl

/-- Posting messages is one arrival after the other. -/
theorem run_post (connection : ℕ) (messages : List Bytes) (state : Workers.State σ) :
    run (Workers.step server workers) state
        (messages.map fun msg ↦ .arrive ⟨connection, msg⟩) =
      .ok { state with
        arrived := state.arrived ++ messages.map (⟨connection, ·⟩)
        queue := state.queue ++ messages.map (⟨connection, ·⟩) } := by
  induction messages generalizing state with
  | nil => simp
  | cons msg messages ih =>
    have hstep : Workers.step server workers state (.arrive ⟨connection, msg⟩) =
        .ok (state.run ⟨connection, msg⟩) := rfl
    rw [List.map_cons, run_cons_ok hstep, ih]
    simp [Workers.State.run]

theorem forget_take (state : State σ β) (worker : ℕ) :
    (state.take workers worker).forget = state.forget.take workers worker := by
  have hidle : state.forget.Idle workers worker ↔
      worker < workers ∧ ∀ entry ∈ state.taken, entry.1 ≠ worker := by
    unfold Workers.State.Idle State.forget
    exact and_congr_right fun _ ↦ List.forall_mem_map
  unfold State.take Workers.State.take
  split_ifs with hfree hforget hforget
  · have hqueue : state.forget.queue = state.queue.map Posted.task := rfl
    cases hstate : state.queue with
    | nil =>
      rw [hstate, List.map_nil] at hqueue
      rw [hqueue]
    | cons front rest =>
      rw [hstate, List.map_cons] at hqueue
      rw [hqueue]
      simp [State.forget]
  · exact absurd (hidle.mpr hfree) hforget
  · exact absurd (hidle.mp hforget) hfree
  · rfl

/-- What a worker holds, seen by the workers alone. -/
theorem find_forget (state : State σ β) (worker : ℕ) :
    state.forget.taken.find? (fun entry ↦ entry.1 = worker) =
      (state.taken.find? fun entry ↦ entry.1 = worker).map fun entry ↦
        (entry.1, entry.2.task) := by
  unfold State.forget
  rw [List.find?_map]
  rfl

theorem forget_execute {state next : State σ β} {worker : ℕ} {answers : Answers}
    (hexecute : execute server state worker answers = .ok next) :
    Workers.execute server state.forget worker answers = .ok next.forget := by
  unfold execute State.held at hexecute
  unfold Workers.execute
  rw [find_forget]
  cases hfind : state.taken.find? (fun entry ↦ entry.1 = worker) with
  | none =>
    rw [hfind] at hexecute
    obtain rfl := Except.ok.inj hexecute
    rfl
  | some entry =>
    rw [hfind] at hexecute
    dsimp only [Option.map_some] at hexecute ⊢
    have hdb : state.forget.db = state.db := rfl
    rw [hdb]
    cases hdeal : dealMessage server answers state.db entry.2.task.msg with
    | error fault =>
      rw [hdeal] at hexecute
      cases hexecute
    | ok outcome =>
      rw [hdeal] at hexecute
      obtain rfl := Except.ok.inj hexecute
      rw [forget_act]
      simp [State.forget, List.eraseP_map, Function.comp_def]

/-- To the workers, a run of the server is one in which connections bring messages and nothing
else: neither the connections that are known nor those whose write side is closed play a part. -/
theorem step_forget {state next : State σ β} {event : Event}
    (hstep : step server net workers state event = .ok next) :
    run (Workers.step server workers) state.forget (workerEvents net state event) =
      .ok next.forget := by
  cases event with
  | up connection =>
    obtain rfl := Except.ok.inj hstep
    rfl
  | down connection =>
    obtain rfl := Except.ok.inj hstep
    rfl
  | receive connection chunk =>
    obtain rfl := Except.ok.inj hstep
    rw [workerEvents, run_post]
    simp [State.receive, State.post, State.posted, State.forget, Function.comp_def]
  | take worker =>
    obtain rfl := Except.ok.inj hstep
    rw [forget_take]
    rfl
  | execute worker answers =>
    exact run_cons_eq_ok_iff.mpr ⟨next.forget, forget_execute server hstep, rfl⟩

/-! ### Uploads after a message with an unknown command -/

/-- The worker deals with an upload that arrived late. -/
def DealsLate (state : State σ β) (worker : ℕ) (document : DocumentKey) (body : Bytes) : Prop :=
  ∃ posted, state.held worker = some posted ∧ posted.late = true ∧
    uploadedBy posted.task.msg = some (document, body)

/-- A late upload that is dealt with does not change the table. -/
def Unchanged (state : State σ β) : Event → Prop
  | .execute worker answers => ∀ document body, DealsLate state worker document body →
    ∀ next, execute server state worker answers = .ok next →
      server.content next.db = server.content state.db
  | _ => True

/-- A late upload that is dealt with gets no connection, is refused by the database, or names a row
that holds its body already. -/
def Refused (state : State σ β) : Event → Prop
  | .execute worker answers => ∀ document body, DealsLate state worker document body →
    answers.connected = false ∨ answers.accepted = false ∨
      document.Safe ∧ server.content state.db document = some body
  | _ => True

/-- The header values of late uploads are text safe. -/
def LateSafe (state : State σ β) : Event → Prop
  | .execute worker _ => ∀ document body, DealsLate state worker document body → document.Safe
  | _ => True

@[simp] theorem db_act (state : State σ β) (connection : ℕ) (action : Action) :
    (state.act connection action).db = state.db :=
  congrArg Workers.State.db (forget_act state connection action)

/-- A worker that deals with its task leaves the database as `dealMessage` does. -/
theorem dealMessage_of_execute {state next : State σ β} {worker : ℕ} {answers : Answers}
    {posted : Posted} (hheld : state.held worker = some posted)
    (hexecute : execute server state worker answers = .ok next) :
    ∃ action, dealMessage server answers state.db posted.task.msg = .ok (next.db, action) := by
  unfold execute at hexecute
  rw [hheld] at hexecute
  dsimp only at hexecute
  cases hdeal : dealMessage server answers state.db posted.task.msg with
  | error fault =>
    rw [hdeal] at hexecute
    cases hexecute
  | ok outcome =>
    rw [hdeal] at hexecute
    obtain rfl := Except.ok.inj hexecute
    exact ⟨outcome.2, by simp⟩

/-- A late upload goes to the database as every upload does: nothing asks whether it is late. -/
theorem db_of_dealsLate {state next : State σ β} {worker : ℕ} {answers : Answers}
    {document : DocumentKey} {body : Bytes} (hdeals : DealsLate state worker document body)
    (hexecute : execute server state worker answers = .ok next) :
    next.db = if answers.connected then (mysqlInsert server answers state.db document body).1
      else state.db := by
  obtain ⟨posted, hheld, -, hupload⟩ := hdeals
  obtain ⟨action, hdeal⟩ := dealMessage_of_execute server hheld hexecute
  rw [dealMessage_of_uploadedBy server answers state.db hupload] at hdeal
  split_ifs at hdeal ⊢ with hconnected
  · exact (Prod.mk.inj (Except.ok.inj hdeal)).1.symm
  · exact (Prod.mk.inj (Except.ok.inj hdeal)).1.symm

/-- A late upload of text safe values leaves the table alone exactly when it is refused or finds its
body in its row. -/
theorem content_of_dealsLate {state next : State σ β} {worker : ℕ} {answers : Answers}
    {document : DocumentKey} {body : Bytes} (hdeals : DealsLate state worker document body)
    (hsafe : document.Safe) (hexecute : execute server state worker answers = .ok next) :
    server.content next.db = server.content state.db ↔
      answers.connected = false ∨ answers.accepted = false ∨
        server.content state.db document = some body := by
  rw [db_of_dealsLate server hdeals hexecute]
  cases hconnected : answers.connected with
  | false => simp
  | true =>
    rw [if_pos rfl, content_mysqlInsert server answers state.db hsafe]
    cases haccepted : answers.accepted with
    | false => simp
    | true =>
      rw [if_pos rfl, Function.update_eq_self_iff]
      simp [eq_comm]

theorem unchanged_of_refused {state : State σ β} {event : Event}
    (hrefused : Refused server state event) : Unchanged server state event := by
  cases event with
  | execute worker answers =>
    intro document body hdeals next hexecute
    rcases hrefused document body hdeals with hconnected | haccepted | ⟨hsafe, hrow⟩
    · rw [db_of_dealsLate server hdeals hexecute, hconnected]
      rfl
    · have hnot : ¬ answers.accepted = true := by simp [haccepted]
      rw [db_of_dealsLate server hdeals hexecute, mysqlInsert, if_neg hnot]
      split_ifs <;> rfl
    · exact (content_of_dealsLate server hdeals hsafe hexecute).mpr (.inr (.inr hrow))
  | _ => trivial

/-- A worker that holds an upload finishes with it. -/
theorem exists_execute_of_dealsLate {state : State σ β} {worker : ℕ} (answers : Answers)
    {document : DocumentKey} {body : Bytes} (hdeals : DealsLate state worker document body) :
    ∃ next, execute server state worker answers = .ok next := by
  obtain ⟨posted, hheld, -, hupload⟩ := hdeals
  have hdeal := dealMessage_of_uploadedBy server answers state.db hupload
  unfold execute
  rw [hheld]
  dsimp only
  split_ifs at hdeal
  · rw [hdeal]
    exact ⟨_, rfl⟩
  · rw [hdeal]
    exact ⟨_, rfl⟩

theorem refused_of_unchanged {state : State σ β} {event : Event} (hsafe : LateSafe state event)
    (hunchanged : Unchanged server state event) : Refused server state event := by
  cases event with
  | execute worker answers =>
    intro document body hdeals
    obtain ⟨next, hexecute⟩ := exists_execute_of_dealsLate server answers hdeals
    have hdocument := hsafe document body hdeals
    rcases (content_of_dealsLate server hdeals hdocument hexecute).mp
      (hunchanged document body hdeals next hexecute) with hconnected | haccepted | hrow
    · exact .inl hconnected
    · exact .inr (.inl haccepted)
    · exact .inr (.inr ⟨hdocument, hrow⟩)
  | _ => trivial

/-- In every run in which every late upload that is dealt with is refused or finds its body in its
row, late uploads leave the table alone. For text safe header values there are no other runs. -/
theorem late_uploads_unchanged_iff (db : σ) (events : List Event) :
    (Guarded (step server net workers) (Refused server) (start net db) events →
      Guarded (step server net workers) (Unchanged server) (start net db) events) ∧
    (Guarded (step server net workers) LateSafe (start net db) events →
      Guarded (step server net workers) (Unchanged server) (start net db) events →
      Guarded (step server net workers) (Refused server) (start net db) events) := by
  constructor
  · intro hrefused
    exact Guarded.combine (fun _ _ hnow _ ↦ unchanged_of_refused server hnow) hrefused hrefused
  · exact Guarded.combine fun _ _ ↦ refused_of_unchanged server

end Server

/-! ### An upload after a message with an unknown command -/

/-- A frame that fills an empty buffer is cut off as a whole. -/
theorem onMessage_frame {message : Message} (habsent : ¬ deli.symbols <:+: payload message)
    (hlength : (payload message).length + deliLen < 2 ^ 31) :
    onMessage .ofBytes (payload message ++ deli.symbols) = ([payload message], []) := by
  have hnothing : ¬ deli.symbols <:+: [] := not_infix_content_empty .ofBytes
  have hcut : deli.cut (payload message ++ deli.symbols) = ([payload message], []) := by
    have hframe := deli.cut_frame habsent []
    rw [List.append_nil, deli.cut_of_not_infix hnothing] at hframe
    exact hframe
  have hsize : (NetBuffer.ofBytes.content (payload message ++ deli.symbols)).length < 2 ^ 31 := by
    change (payload message ++ deli.symbols).length < 2 ^ 31
    rw [List.length_append, length_deli]
    exact hlength
  obtain ⟨hmessages, hleft⟩ := onMessage_eq_cut_of_length .ofBytes hsize
  change _ = (deli.cut (payload message ++ deli.symbols)).1 at hmessages
  change _ = (deli.cut (payload message ++ deli.symbols)).2 at hleft
  rw [hcut] at hmessages hleft
  exact Prod.ext hmessages hleft

section Frame

variable {state : State (DocumentKey → Option Bytes) Bytes} {connection : ℕ} {message : Message}

theorem receive_frame (hbuffer : state.buffers connection = []) (hqueue : state.queue = [])
    (habsent : ¬ deli.symbols <:+: payload message)
    (hlength : (payload message).length + deliLen < 2 ^ 31) :
    state.receive .ofBytes connection (payload message ++ deli.symbols) =
      { state with
        buffers := Function.update state.buffers connection []
        arrived := state.arrived ++ [state.posted connection (payload message)]
        queue := [state.posted connection (payload message)] } := by
  have hbytes : NetBuffer.ofBytes.append (state.buffers connection)
      (payload message ++ deli.symbols) = payload message ++ deli.symbols := by
    rw [hbuffer]
    exact List.nil_append _
  unfold State.receive
  rw [hbytes, onMessage_frame habsent hlength]
  simp [State.post, State.posted, hqueue]

/-- The first worker takes the only task of the queue. -/
theorem take_single {posted : Posted} (hqueue : state.queue = [posted])
    (htaken : state.taken = []) :
    state.take 8 0 = { state with queue := [], taken := [(0, posted)] } := by
  have hidle : 0 < 8 ∧ ∀ entry ∈ state.taken, entry.1 ≠ 0 := by
    rw [htaken]
    exact ⟨by decide, List.forall_mem_nil _⟩
  unfold State.take
  rw [if_pos hidle, hqueue, htaken]
  rfl

/-- The first worker deals with the only task that is taken. -/
theorem execute_single {posted : Posted} {answers : Answers}
    {next : DocumentKey → Option Bytes} {action : Action} (htaken : state.taken = [(0, posted)])
    (hdeal : dealMessage .ofTable answers state.db posted.task.msg = .ok (next, action)) :
    execute .ofTable state 0 answers =
      .ok (State.act
        { state with
          taken := []
          executed := state.executed ++ [(posted, answers)]
          db := next } posted.task.connection action) := by
  have hheld : state.held 0 = some posted := by
    unfold State.held
    rw [htaken]
    rfl
  unfold execute
  rw [hheld]
  dsimp only
  rw [hdeal, htaken]
  rfl

/-- A frame arrives on a connection, and the first worker takes its message and deals with it. -/
def frameEvents (connection : ℕ) (message : Message) : List Event :=
  [.receive connection (payload message ++ deli.symbols), .take 0, .execute 0 ⟨true, true⟩]

/-- The message of a frame is dealt with when no other one is waiting. -/
theorem run_frameEvents {next : DocumentKey → Option Bytes} {action : Action}
    (hbuffer : state.buffers connection = []) (hqueue : state.queue = [])
    (htaken : state.taken = []) (habsent : ¬ deli.symbols <:+: payload message)
    (hlength : (payload message).length + deliLen < 2 ^ 31)
    (hdeal : dealMessage .ofTable ⟨true, true⟩ state.db (payload message) = .ok (next, action)) :
    run (step .ofTable .ofBytes 8) state (frameEvents connection message) =
      .ok (State.act
        { state with
          buffers := Function.update state.buffers connection []
          arrived := state.arrived ++ [state.posted connection (payload message)]
          queue := []
          taken := []
          executed := state.executed ++ [(state.posted connection (payload message), ⟨true, true⟩)]
          db := next } connection action) := by
  have hreceive := receive_frame hbuffer hqueue habsent hlength
  generalize hreceived : state.receive .ofBytes connection (payload message ++ deli.symbols) =
    received at hreceive
  generalize hposted : state.posted connection (payload message) = posted at hreceive ⊢
  have htask : posted.task = ⟨connection, payload message⟩ := hposted ▸ rfl
  have htake : received.take 8 0 = { received with queue := [], taken := [(0, posted)] } := by
    apply take_single
    · rw [hreceive]
    · rw [hreceive]
      exact htaken
  have hexecute : execute .ofTable { received with queue := [], taken := [(0, posted)] } 0
      ⟨true, true⟩ =
        .ok (State.act
          { received with
            queue := []
            taken := []
            executed := received.executed ++ [(posted, ⟨true, true⟩)]
            db := next } posted.task.connection action) := by
    apply execute_single rfl
    rw [hreceive, htask]
    exact hdeal
  have hfirst : step .ofTable .ofBytes 8 state
      (.receive connection (payload message ++ deli.symbols)) = .ok received :=
    congrArg Except.ok hreceived
  have hsecond : step .ofTable .ofBytes 8 received (.take 0) =
      .ok { received with queue := [], taken := [(0, posted)] } :=
    congrArg Except.ok htake
  rw [frameEvents, run_cons_ok hfirst, run_cons_ok hsecond, run_cons_ok hexecute, run_nil, hreceive,
    htask]

end Frame

/-- A message with an unknown command. -/
def quit : Message := ⟨ascii "QUIT", ascii "TXT", ascii "ann", ascii "2024", ascii "B", []⟩

theorem dealMessage_quit (db : DocumentKey → Option Bytes) :
    dealMessage .ofTable ⟨true, true⟩ db (payload quit) = .ok (db, .disconnect) := by
  have hlength : headerLen ≤ (payload quit).length := by decide +kernel
  have hcmd : (parseHeader (payload quit)).cmd = ascii "QUIT" := by decide +kernel
  unfold dealMessage
  rw [if_pos hlength]
  dsimp only
  rw [hcmd, if_neg (by decide), if_neg (by decide), if_pos (by decide)]

/-- The table that the late upload leaves. -/
theorem content_annual_stored :
    MysqlServer.ofTable.content (mysqlInsert .ofTable ⟨true, true⟩ (fun _ ↦ none)
      (annual (ascii "2024")).stored [31]).1 (annual (ascii "2024")).stored = some [31] := by
  rw [content_mysqlInsert _ _ _ annual_carried_2024.safe.stored, if_pos rfl, Function.update_self]

/-- After the message with the unknown command the connection is no longer in `connections_`, and
an upload that arrives on it still writes its document to the table. -/
theorem late_upload_changes_table :
    ∃ middle final,
      run (step .ofTable .ofBytes 8) (start .ofBytes fun _ ↦ none)
          (.up 1 :: frameEvents 1 quit) = .ok middle ∧
        1 ∈ middle.violated ∧ 1 ∉ middle.connections ∧
        run (step .ofTable .ofBytes 8) middle
          (frameEvents 1 (uploadOf (annual (ascii "2024")) [31])) = .ok final ∧
        MysqlServer.ofTable.content final.db ≠ MysqlServer.ofTable.content middle.db := by
  have hup : step .ofTable .ofBytes 8 (start .ofBytes fun _ ↦ none) (.up 1) =
      .ok (State.onConnection (start .ofBytes fun _ ↦ none) 1 true) := rfl
  have hupload := annual_stored [31]
  refine ⟨_, _, (run_cons_ok hup _).trans (run_frameEvents rfl rfl rfl (by decide +kernel)
    (by decide +kernel) (dealMessage_quit _)), ?_, ?_, run_frameEvents rfl rfl rfl
    (by decide +kernel) (by decide +kernel) hupload, ?_⟩
  · exact List.mem_cons_self
  · decide
  · intro hsame
    have hrow := congrFun hsame (annual (ascii "2024")).stored
    rw [db_act, db_act] at hrow
    exact absurd (content_annual_stored.symm.trans hrow) nofun

end TradeServers.LogTimeServer.Sessions
