import TradeServers.Library.Execution
import TradeServers.Library.ResourceLog
import Mathlib.Data.Int.Notation
import Mathlib.Tactic.SplitIfs

/-!
# The handle of the trading database layer

`CDataBase` owns one handle of libmysql, `m_Data`. `Connect` overwrites it with a new one, and where
it fails it closes the handle and leaves the pointer as it is. `life_cycle_iff` says in which runs
every handle is closed exactly once and none is used after it was closed, and `pattern_keeps_iff`
what the pattern of `CDBOperation` does to that.

A handle is numbered by the call of `mysql_init` that returned it. The log records what libmysql is
asked to do with handles.
-/

set_option autoImplicit false
set_option relaxedAutoImplicit false

namespace TradeServers.DbLayer

open Execution ResourceLog

/-! ### `CDataBase` -/

/-- The functions of libmysql that take a handle, other than `mysql_close`. -/
inductive LibraryCall
  | options
  | realConnect
  | setCharacterSet
  | selectDb
  | ping
  | realQuery
  | affectedRows
  | storeResult
  | stmtInit
  | error
deriving DecidableEq

/-- `CDataBase`: `m_Data`, with the number of handles that `mysql_init` has returned, and the log of
the calls of libmysql. -/
structure CDataBase where
  data : Option ℕ
  handles : ℕ
  log : List (Entry LibraryCall ℕ)

/-- What the calls of libmysql in `Connect` return: whether `mysql_init` returns a handle, whether
the two `mysql_options` and `mysql_real_connect` succeed, and the result of `mysql_select_db`. -/
structure ConnectAnswers where
  init : Bool
  reconnect : Bool
  timeout : Bool
  connects : Bool
  selected : ℤ

/-- The program passes the null pointer to a function of libmysql that needs a handle. -/
inductive HandleFault
  | nullHandle
deriving DecidableEq

namespace CDataBase

/-- `CDataBase::CDataBase`. -/
def start : CDataBase := ⟨none, 0, []⟩

/-- `m_Data = mysql_init(NULL)`. -/
def mysqlInit (returns : Bool) (db : CDataBase) : CDataBase :=
  if returns then
    { data := some db.handles
      handles := db.handles + 1
      log := db.log ++ [.acquire db.handles] }
  else { db with data := none }

/-- `mysql_close(m_Data)`, which does nothing on the null pointer. -/
def mysqlClose (db : CDataBase) : CDataBase :=
  match db.data with
  | none => db
  | some handle => { db with log := db.log ++ [.release handle] }

/-- Calls of libmysql on `m_Data`. -/
def use (calls : List LibraryCall) (db : CDataBase) : CDataBase :=
  match db.data with
  | none => db
  | some handle => { db with log := db.log ++ calls.map (.use · handle) }

/-- `CDataBase::Connect`. -/
def connect (answers : ConnectAnswers) (db : CDataBase) : ℤ × CDataBase :=
  let db := db.mysqlInit answers.init
  if db.data = none then (-1, db.mysqlClose)
  else
    let db := db.use [.options]
    if answers.reconnect = false then (-1, db.mysqlClose)
    else
      let db := db.use [.options]
      if answers.timeout = false then (-1, db.mysqlClose)
      else
        let db := db.use [.realConnect]
        if answers.connects = false then (-1, db.mysqlClose)
        else
          let db := db.use [.setCharacterSet, .selectDb]
          if answers.selected < 0 then (-1, db.mysqlClose) else (0, db)

/-- `CDataBase::DisConnect`. -/
def disConnect (db : CDataBase) : CDataBase := { db.mysqlClose with data := none }

/-- `CDataBase::~CDataBase`. -/
def destroy (db : CDataBase) : CDataBase := if db.data ≠ none then db.disConnect else db

/-- `CDataBase::Ping`. -/
def ping (alive : Bool) (db : CDataBase) : ℤ × CDataBase :=
  if db.data ≠ none then (if alive then 0 else -1, db.use [.ping]) else (-1, db)

/-- Calls that need a handle. -/
def query (calls : List LibraryCall) (db : CDataBase) : Except HandleFault CDataBase :=
  if db.data = none ∧ calls ≠ [] then .error .nullHandle else .ok (db.use calls)

/-- `CDataBase::ExecQuery`: the number of rows is asked for when the query succeeds. -/
def execQuery (accepted : Bool) (db : CDataBase) : Except HandleFault CDataBase :=
  db.query (if accepted then [.realQuery, .affectedRows] else [.realQuery])

/-- The shape of `CDataBase::Start_Transaction`, `CDataBase::Commit` and `CDataBase::Rollback`. -/
def control (db : CDataBase) : Except HandleFault CDataBase := db.query [.realQuery]

end CDataBase

/-- A call of a member function of `CDataBase`, with what libmysql answers. The caller of `GetMysql`
makes calls on the handle it gets. -/
inductive DataBaseCall
  | connect (answers : ConnectAnswers)
  | ping (alive : Bool)
  | getMysql (calls : List LibraryCall)
  | execQuery (accepted : Bool)
  | startTransaction
  | commit
  | rollback
  | disConnect

/-- The effect of a call. -/
def handleStep (db : CDataBase) : DataBaseCall → Except HandleFault CDataBase
  | .connect answers => .ok (db.connect answers).2
  | .ping alive => .ok (db.ping alive).2
  | .getMysql calls => db.query calls
  | .execQuery accepted => db.execQuery accepted
  | .startTransaction => db.control
  | .commit => db.control
  | .rollback => db.control
  | .disConnect => .ok db.disConnect

/-! ### The life cycle of handles -/

/-- `m_Data` is null or an open handle. -/
def CDataBase.Pointing (db : CDataBase) : Prop :=
  ∀ handle, db.data = some handle → Held db.log handle

/-- For a sequence of calls and the destructor behind them: every handle is closed exactly once,
no handle is used or closed after it was closed, and between the calls `m_Data` is null or an open
handle. -/
structure LifeCycle (calls : List DataBaseCall) (final : CDataBase) : Prop where
  closed : Balanced final.destroy.log
  unused : Proper final.destroy.log
  pointing : ∀ earlier later middle, calls = earlier ++ later →
    run handleStep .start earlier = .ok middle → middle.Pointing

/-- Every step of `Connect` succeeds. -/
structure ConnectAnswers.Succeeds (answers : ConnectAnswers) : Prop where
  reconnect : answers.reconnect = true
  timeout : answers.timeout = true
  connects : answers.connects = true
  selected : 0 ≤ answers.selected

/-- A call of `Connect` finds `m_Data` null, and does not fail once it has a handle. -/
def ConnectsOnce (db : CDataBase) : DataBaseCall → Prop
  | .connect answers => db.data = none ∧ (answers.init = true → answers.Succeeds)
  | _ => True

/-! ### What a call does -/

section Calls

variable {db next : CDataBase} {call : DataBaseCall} {handle : ℕ}

/-- `Connect` without a handle, with a handle that it keeps, and with one that it closes. -/
theorem connect_cases (answers : ConnectAnswers) (db : CDataBase) :
    (answers.init = false ∧ (db.connect answers).2 = { db with data := none }) ∨
    (answers.init = true ∧ ∃ calls : List LibraryCall,
      (answers.Succeeds ∧ (db.connect answers).2 =
        ⟨some db.handles, db.handles + 1,
          db.log ++ [.acquire db.handles] ++ calls.map (.use · db.handles)⟩) ∨
      (¬ answers.Succeeds ∧ (db.connect answers).2 =
        ⟨some db.handles, db.handles + 1,
          db.log ++ [.acquire db.handles] ++ calls.map (.use · db.handles) ++
            [.release db.handles]⟩)) := by
  obtain ⟨init, reconnect, timeout, connects, selected⟩ := answers
  cases init with
  | false => exact .inl ⟨rfl, rfl⟩
  | true =>
    refine .inr ⟨rfl, ?_⟩
    cases reconnect with
    | false => exact ⟨[.options], .inr ⟨fun hall ↦ (nomatch hall.reconnect), rfl⟩⟩
    | true =>
      cases timeout with
      | false =>
        refine ⟨[.options, .options], .inr ⟨fun hall ↦ (nomatch hall.timeout), ?_⟩⟩
        simp [CDataBase.connect, CDataBase.mysqlInit, CDataBase.use, CDataBase.mysqlClose]
      | true =>
        cases connects with
        | false =>
          refine ⟨[.options, .options, .realConnect], .inr ⟨fun hall ↦ (nomatch hall.connects), ?_⟩⟩
          simp [CDataBase.connect, CDataBase.mysqlInit, CDataBase.use, CDataBase.mysqlClose]
        | true =>
          refine ⟨[.options, .options, .realConnect, .setCharacterSet, .selectDb], ?_⟩
          by_cases hselected : selected < 0
          · refine .inr ⟨fun hall ↦ absurd hall.selected (Int.not_le.mpr hselected), ?_⟩
            simp [CDataBase.connect, CDataBase.mysqlInit, CDataBase.use, CDataBase.mysqlClose,
              hselected]
          · refine .inl ⟨⟨rfl, rfl, rfl, Int.not_lt.mp hselected⟩, ?_⟩
            simp [CDataBase.connect, CDataBase.mysqlInit, CDataBase.use, hselected]

/-- Every call but `Connect` and `DisConnect` at most uses the handle. -/
theorem handleStep_cases (hstep : handleStep db call = .ok next) :
    (∃ answers, call = .connect answers ∧ next = (db.connect answers).2) ∨
      (call = .disConnect ∧ next = db.disConnect) ∨ ∃ calls, next = db.use calls := by
  have hquery {calls : List LibraryCall} (hok : db.query calls = .ok next) :
      ∃ calls, next = db.use calls := by
    unfold CDataBase.query at hok
    split_ifs at hok
    exact ⟨calls, (Except.ok.inj hok).symm⟩
  cases call with
  | connect answers => exact .inl ⟨answers, rfl, (Except.ok.inj hstep).symm⟩
  | disConnect => exact .inr (.inl ⟨rfl, (Except.ok.inj hstep).symm⟩)
  | ping alive =>
    refine .inr (.inr ⟨[.ping], ?_⟩)
    obtain rfl := Except.ok.inj hstep
    unfold CDataBase.ping CDataBase.use
    cases db.data <;> rfl
  | getMysql calls => exact .inr (.inr (hquery hstep))
  | execQuery accepted => exact .inr (.inr (hquery hstep))
  | startTransaction => exact .inr (.inr (hquery hstep))
  | commit => exact .inr (.inr (hquery hstep))
  | rollback => exact .inr (.inr (hquery hstep))

/-! ### Runs without leaks -/

/-- `m_Data` is null or an open handle, there is no other open handle, and no handle was used or
closed after it was closed. -/
structure Valid (db : CDataBase) : Prop where
  pointing : db.Pointing
  owned : ∀ handle, Held db.log handle → db.data = some handle
  proper : Proper db.log
  numbered : ∀ handle, .acquire handle ∈ db.log ∨ .release handle ∈ db.log → handle < db.handles

theorem valid_start : Valid .start :=
  ⟨nofun, fun _ hheld ↦ absurd hheld.acquired List.not_mem_nil, proper_nil,
    fun _ hnone ↦ (hnone.elim List.not_mem_nil List.not_mem_nil).elim⟩

theorem use_of_some (hdata : db.data = some handle) (calls : List LibraryCall) :
    db.use calls = { db with log := db.log ++ calls.map (.use · handle) } := by
  unfold CDataBase.use
  rw [hdata]

theorem disConnect_of_none (hdata : db.data = none) : db.disConnect = db := by
  unfold CDataBase.disConnect CDataBase.mysqlClose
  rw [hdata]
  exact congrArg (CDataBase.mk · db.handles db.log) hdata.symm

theorem disConnect_of_some (hdata : db.data = some handle) :
    db.disConnect = ⟨none, db.handles, db.log ++ [.release handle]⟩ := by
  unfold CDataBase.disConnect CDataBase.mysqlClose
  rw [hdata]

theorem Valid.use (hvalid : Valid db) (calls : List LibraryCall) : Valid (db.use calls) := by
  cases hdata : db.data with
  | none =>
    unfold CDataBase.use
    rw [hdata]
    exact hvalid
  | some handle =>
    have hheld := hvalid.pointing handle hdata
    rw [use_of_some hdata]
    refine ⟨fun other hother ↦ ?_, fun other hother ↦ ?_, ?_, fun other hother ↦ ?_⟩
    · exact (held_append_uses_iff calls).mpr (hvalid.pointing other hother)
    · exact hvalid.owned other ((held_append_uses_iff calls).mp hother)
    · exact hvalid.proper.append_uses hheld.unreleased calls
    · rw [acquire_mem_append_uses, release_mem_append_uses] at hother
      exact hvalid.numbered other hother

theorem Valid.disConnect (hvalid : Valid db) : Valid db.disConnect := by
  cases hdata : db.data with
  | none =>
    rw [disConnect_of_none hdata]
    exact hvalid
  | some handle =>
    have hheld := hvalid.pointing handle hdata
    rw [disConnect_of_some hdata]
    refine ⟨nofun, fun other hother ↦ ?_, ?_, fun other hother ↦ ?_⟩
    · obtain ⟨hbefore, hne⟩ := held_append_release_iff.mp hother
      exact absurd (Option.some.inj ((hvalid.owned other hbefore).symm.trans hdata)) hne
    · exact hvalid.proper.append_release hheld.unreleased
    · rcases hother with hacquired | hreleased
      · exact hvalid.numbered other (.inl (by simpa using hacquired))
      · rcases List.mem_append.mp hreleased with hold | hlast
        · exact hvalid.numbered other (.inr hold)
        · rw [Entry.release.inj (List.mem_singleton.mp hlast)]
          exact hvalid.numbered handle (.inl hheld.acquired)

/-- A `Connect` that finds no handle, and does not fail once it has one. -/
theorem Valid.connect (hvalid : Valid db) {answers : ConnectAnswers}
    (hconnects : ConnectsOnce db (.connect answers)) : Valid (db.connect answers).2 := by
  obtain ⟨hdata, hsucceeds⟩ := hconnects
  rcases connect_cases answers db with ⟨-, hnext⟩ | ⟨hinit, calls, ⟨-, hnext⟩ | ⟨hfails, -⟩⟩
  · rw [hnext, ← hdata]
    exact hvalid
  · have hnew : .release db.handles ∉ db.log :=
      fun hreleased ↦ absurd (hvalid.numbered _ (.inr hreleased)) (Nat.lt_irrefl _)
    rw [hnext]
    refine ⟨fun other hother ↦ ?_, fun other hother ↦ ?_, ?_, fun other hother ↦ ?_⟩
    · rw [held_append_uses_iff, held_append_acquire_iff hnew]
      exact .inr (Option.some.inj hother).symm
    · rw [held_append_uses_iff, held_append_acquire_iff hnew] at hother
      rcases hother with hold | rfl
      · exact absurd ((hvalid.owned other hold).symm.trans hdata) nofun
      · rfl
    · refine (hvalid.proper.append_acquire _).append_uses ?_ calls
      simp [hnew]
    · rw [acquire_mem_append_uses, release_mem_append_uses, List.mem_append, List.mem_append,
        List.mem_singleton, List.mem_singleton] at hother
      rcases hother with (hold | hnow) | (hold | hnow)
      · exact Nat.lt_succ_of_lt (hvalid.numbered other (.inl hold))
      · rw [Entry.acquire.inj hnow]
        exact Nat.lt_succ_self _
      · exact Nat.lt_succ_of_lt (hvalid.numbered other (.inr hold))
      · cases hnow
  · exact absurd (hsucceeds hinit) hfails

/-- Every call whose `Connect` finds no handle and keeps the one it gets leaves a valid state. -/
theorem valid_step (hvalid : Valid db) (hconnects : ConnectsOnce db call)
    (hstep : handleStep db call = .ok next) : Valid next := by
  rcases handleStep_cases hstep with ⟨answers, rfl, rfl⟩ | ⟨-, rfl⟩ | ⟨calls, rfl⟩
  · exact hvalid.connect hconnects
  · exact hvalid.disConnect
  · exact hvalid.use calls

/-! ### Leaks -/

/-- A handle that is open, and that `m_Data` does not point to. -/
structure Leaked (handle : ℕ) (db : CDataBase) : Prop where
  held : Held db.log handle
  earlier : handle < db.handles
  forgotten : db.data ≠ some handle

theorem leaked_disConnect (hleaked : Leaked handle db) : Leaked handle db.disConnect := by
  cases hdata : db.data with
  | none =>
    rw [disConnect_of_none hdata]
    exact hleaked
  | some other =>
    rw [disConnect_of_some hdata]
    refine ⟨held_append_release_iff.mpr ⟨hleaked.held, ?_⟩, hleaked.earlier, nofun⟩
    rintro rfl
    exact hleaked.forgotten hdata

/-- `Connect` forgets the handle that it finds, and never gets it back. -/
theorem leaked_connect (hheld : Held db.log handle) (hearlier : handle < db.handles)
    (answers : ConnectAnswers) : Leaked handle (db.connect answers).2 := by
  have hne : handle ≠ db.handles := Nat.ne_of_lt hearlier
  have hforgotten : some db.handles ≠ some handle := fun heq ↦ hne (Option.some.inj heq).symm
  have hlonger (calls : List LibraryCall) :
      Held (db.log ++ [.acquire db.handles] ++ calls.map (.use · db.handles)) handle := by
    rw [held_append_uses_iff]
    exact ⟨List.mem_append_left _ hheld.acquired, by simp [hheld.unreleased]⟩
  rcases connect_cases answers db with ⟨-, hnext⟩ | ⟨-, calls, ⟨-, hnext⟩ | ⟨-, hnext⟩⟩
  · rw [hnext]
    exact ⟨hheld, hearlier, nofun⟩
  · rw [hnext]
    exact ⟨hlonger calls, Nat.lt_succ_of_lt hearlier, hforgotten⟩
  · rw [hnext]
    exact ⟨held_append_release_iff.mpr ⟨hlonger calls, hne⟩, Nat.lt_succ_of_lt hearlier,
      hforgotten⟩

/-- A leaked handle stays leaked. -/
theorem leaked_step (hleaked : Leaked handle db) (hstep : handleStep db call = .ok next) :
    Leaked handle next := by
  rcases handleStep_cases hstep with ⟨answers, rfl, rfl⟩ | ⟨-, rfl⟩ | ⟨calls, rfl⟩
  · exact leaked_connect hleaked.held hleaked.earlier answers
  · exact leaked_disConnect hleaked
  · cases hdata : db.data with
    | none =>
      unfold CDataBase.use
      rw [hdata]
      exact hleaked
    | some other =>
      rw [use_of_some hdata]
      exact ⟨(held_append_uses_iff calls).mpr hleaked.held, hleaked.earlier, hleaked.forgotten⟩

theorem leaked_destroy (hleaked : Leaked handle db) : Held db.destroy.log handle := by
  unfold CDataBase.destroy
  split_ifs
  · exact (leaked_disConnect hleaked).held
  · exact hleaked.held

/-- The destructor closes the handle that is open. -/
theorem closed_destroy (hvalid : Valid db) :
    Balanced db.destroy.log ∧ Proper db.destroy.log := by
  have hproper : Valid db.destroy ∧ db.destroy.data = none := by
    unfold CDataBase.destroy
    split_ifs with hdata
    · exact ⟨hvalid.disConnect, rfl⟩
    · exact ⟨hvalid, not_not.mp hdata⟩
  refine ⟨hproper.1.proper.balanced_iff.mpr fun handle hheld ↦ ?_, hproper.1.proper⟩
  exact absurd ((hproper.1.owned handle hheld).symm.trans hproper.2) nofun

/-! ### Runs -/

/-- From a valid state, a run that keeps `m_Data` pointing and leaves nothing open behind the
destructor is one in which every `Connect` finds no handle and keeps the one it gets. -/
theorem guarded_of_closed {calls : List DataBaseCall} :
    ∀ {db final : CDataBase}, Valid db → run handleStep db calls = .ok final →
      Balanced final.destroy.log →
      (∀ earlier later middle, calls = earlier ++ later →
        run handleStep db earlier = .ok middle → middle.Pointing) →
      Guarded handleStep ConnectsOnce db calls := by
  induction calls with
  | nil => exact fun _ _ _ _ ↦ trivial
  | cons call calls ih =>
    intro db final hvalid hrun hbalanced hpointing
    obtain ⟨next, hstep, hrest⟩ := run_cons_eq_ok_iff.mp hrun
    have hconnects : ConnectsOnce db call := by
      cases call with
      | connect answers =>
        obtain rfl := Except.ok.inj hstep
        refine ⟨Option.eq_none_iff_forall_ne_some.mpr fun handle hdata ↦ ?_, fun hinit ↦ ?_⟩
        · have hheld := hvalid.pointing handle hdata
          have hleaked := leaked_connect hheld (hvalid.numbered _ (.inl hheld.acquired)) answers
          have hleft : Leaked handle final :=
            run_invariant (fun _ _ _ ↦ leaked_step) hleaked hrest
          have hopen := leaked_destroy hleft
          have hone := hbalanced handle hopen.acquired
          rw [List.count_eq_zero_of_not_mem hopen.unreleased] at hone
          exact absurd hone (by decide)
        · have hnow := hpointing [.connect answers] calls _ rfl rfl
          rcases connect_cases answers db with ⟨hnone, -⟩ | ⟨-, _, ⟨hsucceeds, -⟩ | ⟨-, hnext⟩⟩
          · exact absurd (hinit.symm.trans hnone) nofun
          · exact hsucceeds
          · rw [hnext] at hnow
            refine absurd ?_ (hnow db.handles rfl).unreleased
            exact List.mem_append_right _ List.mem_cons_self
      | _ => trivial
    refine ⟨hconnects, fun other hother ↦ ?_⟩
    obtain rfl := Except.ok.inj (hstep.symm.trans hother)
    refine ih (valid_step hvalid hconnects hstep) hrest hbalanced
      fun earlier later middle hcalls hmiddle ↦ ?_
    exact hpointing (call :: earlier) later middle (congrArg _ hcalls)
      (run_cons_eq_ok_iff.mpr ⟨next, hstep, hmiddle⟩)

/-- For any sequence of calls that ends with the destructor: every handle is closed exactly once and
none is used after it was closed, with `m_Data` null or open in between, exactly when every
`Connect` finds `m_Data` null and succeeds once `mysql_init` has given it a handle. -/
theorem life_cycle_iff {calls : List DataBaseCall} {final : CDataBase}
    (hrun : run handleStep .start calls = .ok final) :
    LifeCycle calls final ↔ Guarded handleStep ConnectsOnce .start calls := by
  constructor
  · intro hlife
    exact guarded_of_closed valid_start hrun hlife.closed hlife.pointing
  · intro hguarded
    have hstep : ∀ db call next, Valid db → ConnectsOnce db call → handleStep db call = .ok next →
        Valid next := fun _ _ _ ↦ valid_step
    have hclosed := closed_destroy (Guarded.run_invariant hstep valid_start hguarded hrun)
    refine ⟨hclosed.1, hclosed.2, fun earlier later middle hcalls hmiddle ↦ ?_⟩
    rw [hcalls] at hguarded
    exact (Guarded.run_invariant hstep valid_start (guarded_append_iff.mp hguarded).1
      hmiddle).pointing

end Calls

/-- A connection, a query and the destructor. -/
theorem life_cycle_of_query :
    LifeCycle [.connect ⟨true, true, true, true, 0⟩, .execQuery true]
        ⟨some 0, 1, [.acquire 0, .use .options 0, .use .options 0, .use .realConnect 0,
          .use .setCharacterSet 0, .use .selectDb 0, .use .realQuery 0, .use .affectedRows 0]⟩ ↔
      Guarded handleStep ConnectsOnce .start
        [.connect ⟨true, true, true, true, 0⟩, .execQuery true] :=
  life_cycle_iff rfl

/-! ### The pattern of `CDBOperation` -/

/-- What happens to an operation of `CDBOperation`: the answers to `Ping` and to `Connect`, and its
statement, which goes through `ExecQuery` or through a record set on `GetMysql`. -/
structure HandleOperation where
  alive : Bool
  answers : ConnectAnswers
  statement : DataBaseCall

/-- The calls of an operation: `Ping`, `ConnectDB` when that fails, and the statement, unless
`ConnectDB` throws. -/
def HandleOperation.calls (operation : HandleOperation) (db : CDataBase) : List DataBaseCall :=
  let pinged := db.ping operation.alive
  if pinged.1 = -1 then
    if (pinged.2.connect operation.answers).1 = -1 then
      [.ping operation.alive, .connect operation.answers]
    else [.ping operation.alive, .connect operation.answers, operation.statement]
  else [.ping operation.alive, operation.statement]

/-- The calls of a sequence of operations. -/
def patternCalls : CDataBase → List HandleOperation → List DataBaseCall
  | _, [] => []
  | db, operation :: operations =>
    operation.calls db ++
      match run handleStep db (operation.calls db) with
      | .ok next => patternCalls next operations
      | .error _ => []

theorem data_ping (alive : Bool) (db : CDataBase) : (db.ping alive).2.data = db.data := by
  unfold CDataBase.ping CDataBase.use
  split_ifs <;> cases hdata : db.data <;> simp [hdata]

/-- An operation whose `Ping` fails on an open handle leaks it, and one whose `ConnectDB` fails on a
new handle leaves it dangling. -/
theorem pattern_keeps_iff (operation : HandleOperation) (db : CDataBase)
    (hstatement : ∀ answers, operation.statement ≠ .connect answers) :
    Guarded handleStep ConnectsOnce db (operation.calls db) ↔
      ((db.ping operation.alive).1 = -1 →
        db.data = none ∧ (operation.answers.init = true → operation.answers.Succeeds)) := by
  have hlast (db : CDataBase) : ConnectsOnce db operation.statement := by
    cases hcall : operation.statement with
    | connect answers => exact absurd hcall (hstatement answers)
    | _ => trivial
  have hping (calls : List DataBaseCall) :
      Guarded handleStep ConnectsOnce db (.ping operation.alive :: calls) ↔
        Guarded handleStep ConnectsOnce (db.ping operation.alive).2 calls := by
    refine ⟨fun hguarded ↦ hguarded.2 _ rfl, fun hguarded ↦ ⟨trivial, fun next hnext ↦ ?_⟩⟩
    exact Except.ok.inj hnext ▸ hguarded
  unfold HandleOperation.calls
  dsimp only
  split_ifs with hfailed hthrows
  · rw [hping, forall_prop_of_true hfailed]
    unfold Guarded ConnectsOnce
    rw [data_ping]
    exact and_iff_left fun _ _ ↦ trivial
  · rw [hping, forall_prop_of_true hfailed]
    unfold Guarded ConnectsOnce
    rw [data_ping]
    exact and_iff_left fun next _ ↦ ⟨hlast next, fun _ _ ↦ trivial⟩
  · rw [hping]
    exact iff_of_true ⟨hlast _, fun _ _ ↦ trivial⟩ fun hfailed' ↦ absurd hfailed' hfailed

/-- An operation that connects, and one whose `Ping` fails later on. -/
def reconnecting : List HandleOperation :=
  [⟨true, ⟨true, true, true, true, 0⟩, .execQuery true⟩,
    ⟨false, ⟨true, true, true, true, 0⟩, .execQuery true⟩]

/-- An operation whose `ConnectDB` does not reach the server. -/
def disconnected : List HandleOperation :=
  [⟨true, ⟨true, true, true, false, 0⟩, .execQuery true⟩]

/-- The first handle of a reconnecting run is never closed. The handle of a run that does not reach
the server is closed by `Connect`, and once more by the destructor. -/
theorem handle_leaks_or_dangles :
    (∃ final, run handleStep .start (patternCalls .start reconnecting) = .ok final ∧
      ¬ LifeCycle (patternCalls .start reconnecting) final) ∧
    ∃ final, run handleStep .start (patternCalls .start disconnected) = .ok final ∧
      ¬ LifeCycle (patternCalls .start disconnected) final := by
  refine ⟨⟨_, rfl, fun hlife ↦ ?_⟩, ⟨_, rfl, fun hlife ↦ ?_⟩⟩
  · exact absurd (hlife.closed 0 (by decide)) (by decide)
  · exact absurd (hlife.closed 0 (by decide)) (by decide)

end TradeServers.DbLayer
