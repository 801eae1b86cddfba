import Mathlib.Logic.Basic

/-!
# Sessions of a transactional database

A session of a database server is in autocommit mode, where every change is committed at once, or
inside a transaction, where changes are pending until `COMMIT`. A session that is lost rolls its
open transaction back; the session that replaces it is in autocommit mode and knows nothing of the
transaction. Changes are abstract: the database is the list of the committed ones.
-/

set_option autoImplicit false
set_option relaxedAutoImplicit false

namespace TradeServers.SqlSession

variable {ω : Type*}

/-- What the server does with the changes of a session. -/
inductive Mode (ω : Type*)
  | lost
  | autocommit
  | transaction (pending : List ω)

/-- A session, and the changes that are committed in the database behind it. -/
@[ext]
structure Session (ω : Type*) where
  mode : Mode ω
  committed : List ω

/-- The statements that matter to transactions. -/
inductive Statement (ω : Type*)
  | startTransaction
  | commit
  | rollback
  | change (op : ω)

/-- The session is gone, and its open transaction with it. -/
def Session.lose (session : Session ω) : Session ω := { session with mode := .lost }

/-- A new session takes the place of this one. -/
def Session.fresh (session : Session ω) : Session ω := { session with mode := .autocommit }

/-- Whether there is no session any more. -/
def Session.isLost (session : Session ω) : Bool :=
  match session.mode with
  | .lost => true
  | _ => false

/-- The effect of a statement on a session that exists. Starting a transaction inside another one
commits that. -/
def Session.perform (session : Session ω) : Statement ω → Session ω
  | .startTransaction =>
    match session.mode with
    | .transaction pending => ⟨.transaction [], session.committed ++ pending⟩
    | _ => { session with mode := .transaction [] }
  | .commit =>
    match session.mode with
    | .transaction pending => ⟨.autocommit, session.committed ++ pending⟩
    | _ => session
  | .rollback =>
    match session.mode with
    | .transaction _ => { session with mode := .autocommit }
    | _ => session
  | .change op =>
    match session.mode with
    | .transaction pending => { session with mode := .transaction (pending ++ [op]) }
    | _ => { session with committed := session.committed ++ [op] }

@[simp] theorem fresh_lose (session : Session ω) : session.lose.fresh = session.fresh := rfl

@[simp] theorem isLost_lose (session : Session ω) : session.lose.isLost = true := rfl

end TradeServers.SqlSession
