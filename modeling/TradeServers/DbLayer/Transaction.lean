import TradeServers.Library.SqlSession
import Mathlib.Data.List.TakeWhile
import Mathlib.Tactic.SplitIfs

/-!
# Transactions of the trading database layer

`CDBOperation` offers `Start_Transaction`, `Commit` and `Rollback` next to its `Upd` and `Del`
operations, and each of these operations first pings the server and connects again when that fails.
The handle is also set to reconnect by itself. None of this is noticed by the caller, who may end a
transaction on another session than the one that started it. `transaction_outcome` says what is in
the database then.

A `Upd` or `Del` operation is abstract here: it is one statement that changes the database.
-/

set_option autoImplicit false
set_option relaxedAutoImplicit false

namespace TradeServers.DbLayer

open SqlSession

variable {ω : Type*}

/-! ### The calls of libmysql -/

/-- What happens to one call on the handle: whether the session is lost before the call reaches the
server, whether the library then establishes a new one (`MYSQL_OPT_RECONNECT` is set), and whether
the server carries the statement out. -/
structure CallAnswers where
  lost : Bool
  reconnects : Bool
  accepted : Bool

/-- The session that a call finds. -/
def arrive (answers : CallAnswers) (session : Session ω) : Session ω :=
  let session := if answers.lost then session.lose else session
  if session.isLost && answers.reconnects then session.fresh else session

/-- `mysql_real_query`: the error flag and the session behind it. -/
def mysqlRealQuery (answers : CallAnswers) (statement : Statement ω) (session : Session ω) :
    Bool × Session ω :=
  let session := arrive answers session
  if session.isLost then (true, session)
  else if answers.accepted then (false, session.perform statement)
  else (true, session)

/-- `mysql_ping`. -/
def mysqlPing (answers : CallAnswers) (session : Session ω) : Bool × Session ω :=
  let session := arrive answers session
  (session.isLost, session)

/-! ### `CDataBase` -/

/-- `CDataBase::Ping`. -/
def ping (answers : CallAnswers) (session : Session ω) : ℤ × Session ω :=
  let pinged := mysqlPing answers session
  (if pinged.1 then -1 else 0, pinged.2)

/-- `CDataBase::Connect` with a new handle; `connects` is its success. -/
def connect (connects : Bool) (session : Session ω) : ℤ × Session ω :=
  if connects then (0, session.fresh) else (-1, session.lose)

/-- `CDataBase::ExecQuery`: the number of affected rows, or -1. -/
def execQuery (answers : CallAnswers) (affected : ℕ) (statement : Statement ω)
    (session : Session ω) : ℤ × Session ω :=
  let queried := mysqlRealQuery answers statement session
  (if queried.1 then -1 else affected, queried.2)

/-- The shape of `CDataBase::Start_Transaction`, `CDataBase::Commit` and `CDataBase::Rollback`. -/
def control (statement : Statement ω) (answers : CallAnswers) (session : Session ω) :
    ℤ × Session ω :=
  let queried := mysqlRealQuery answers statement session
  (if queried.1 then -1 else 0, queried.2)

/-- `CDataBase::Start_Transaction`. -/
def startTransaction (answers : CallAnswers) (session : Session ω) : ℤ × Session ω :=
  control .startTransaction answers session

/-- `CDataBase::Commit`. -/
def commit (answers : CallAnswers) (session : Session ω) : ℤ × Session ω :=
  control .commit answers session

/-- `CDataBase::Rollback`. -/
def rollback (answers : CallAnswers) (session : Session ω) : ℤ × Session ω :=
  control .rollback answers session

/-! ### `CDBOperation` -/

/-- How an operation ends: it returns, or `ConnectDB` throws. -/
inductive Outcome
  | returned (success : Bool)
  | thrown
deriving DecidableEq

/-- One of the `Upd` and `Del` operations, with what happens to its calls. -/
structure Operation (ω : Type*) where
  op : ω
  ping : CallAnswers
  connects : Bool
  exec : CallAnswers
  affected : ℕ

/-- The statement of an operation and its result. -/
def execOperation (operation : Operation ω) (session : Session ω) : Outcome × Session ω :=
  let executed := execQuery operation.exec operation.affected (.change operation.op) session
  (.returned (executed.1 ≠ -1), executed.2)

/-- The shape of the `Upd` and `Del` operations: `Ping`, `ConnectDB` when that fails, then the
statement. -/
def upd (operation : Operation ω) (session : Session ω) : Outcome × Session ω :=
  let pinged := DbLayer.ping operation.ping session
  if pinged.1 = -1 then
    let connected := connect operation.connects pinged.2
    if connected.1 = -1 then (.thrown, connected.2)
    else execOperation operation connected.2
  else execOperation operation pinged.2

end TradeServers.DbLayer
