import TradeServers.DbLayer.Records
import TradeServers.Library.Execution
import TradeServers.Library.NumberedTable

/-!
# Generated ids

`UpdCloudOrder`, `UpdHisCloudOrder` and `UpdTradeCounter` write a record whose id may still have to
be generated. They send `0` for every id that is not positive, and the server draws the next key of
the table. Where the id of the record is zero, a second statement asks for the largest id of the
table, and the record gets this one.

Any number of clients work on the same tables, and their statements interleave: `step` is one
statement of one client, which the server carries out with the values that the client pasted
(`Kind.literals_upd`). `returned_ids_identify_iff` says of every run when the records that the
calls return carry the key of the row that the call wrote.
-/

set_option autoImplicit false
set_option relaxedAutoImplicit false

namespace TradeServers.DbLayer.GeneratedID

open Execution SqlLiteral

/-! ### The tables with generated ids -/

/-- The operations that return a generated id, by their tables. -/
inductive Kind
  | cloudOrder
  | hisCloudOrder
  | tradeCounter
deriving DecidableEq

/-- The records of an operation. -/
@[reducible]
def Kind.Record (Double : Type) : Kind → Type
  | cloudOrder | hisCloudOrder => CloudOrderField Double
  | tradeCounter => TradeCounterField

section Records

variable {Double : Type} (c : Conversions Double)

/-- The id of a record. -/
def Kind.id : (kind : Kind) → kind.Record Double → ℤ
  | cloudOrder, field | hisCloudOrder, field => CloudOrderField.cloudOrderID field
  | tradeCounter, field => TradeCounterField.tradeCounterID field

/-- The record with the id that a call gets back. -/
def Kind.setID : (kind : Kind) → kind.Record Double → ℤ → kind.Record Double
  | cloudOrder, field, id | hisCloudOrder, field, id =>
    { field with cloudOrderID := id : CloudOrderField Double }
  | tradeCounter, field, id => { field with tradeCounterID := id : TradeCounterField }

/-- The values of the `REPLACE` statement of an operation. -/
def Kind.values : (kind : Kind) → kind.Record Double → Row
  | cloudOrder, field | hisCloudOrder, field => CloudOrderField.values c field
  | tradeCounter, field => TradeCounterField.values c field

/-- The text of this statement. -/
def Kind.upd : (kind : Kind) → kind.Record Double → Bytes
  | cloudOrder, field => updCloudOrder c field
  | hisCloudOrder, field => updHisCloudOrder c field
  | tradeCounter, field => updTradeCounter c field

/-- The server reads the values from the text as they are, unless they contain quotes. -/
theorem Kind.literals_upd (kind : Kind) (field : kind.Record Double)
    (hclean : ∀ value ∈ kind.values c field, Clean doubleQuote value) :
    (lex (kind.upd c field)).map Statement.literals = some (kind.values c field) := by
  have hliterals {table : Bytes} (htable : Unquoted table) :
      (lex (replaceText table (kind.values c field))).map Statement.literals =
        some (kind.values c field) := by
    have hne : kind.values c field ≠ [] := by
      cases kind <;> exact List.cons_ne_nil _ _
    rw [lex_replaceText htable hne hclean, Option.map_some, literals_replaceStatement]
  cases kind
  case cloudOrder => exact hliterals (by decide +kernel : Unquoted cloudOrderTable)
  case hisCloudOrder => exact hliterals (by decide +kernel : Unquoted hisCloudOrderTable)
  case tradeCounter => exact hliterals (by decide +kernel : Unquoted tradeCounterTable)

@[simp]
theorem Kind.id_setID (kind : Kind) (field : kind.Record Double) (id : ℤ) :
    kind.id (kind.setID field id) = id := by
  cases kind <;> rfl

/-- The first value is the text of the id. -/
theorem Kind.values_eq_cons (kind : Kind) (field : kind.Record Double) :
    kind.values c field = generatedID c (kind.id field) :: (kind.values c field).tail := by
  cases kind <;> rfl

end Records

/-! ### The statements -/

section Statements

variable {ι Double : Type} [DecidableEq ι] (c : Conversions Double)

/-- The server carries out a `REPLACE` with the given values: the first one is the key, and the row
consists of the others. -/
def execReplace (table : NumberedTable Row) (values : Row) : NumberedTable Row :=
  table.replace (c.toInt (values.column 0)).toNat values.tail

/-- The key of the row that the server writes then. -/
def replacedKey (table : NumberedTable Row) (values : Row) : ℕ :=
  table.keyFor (c.toInt (values.column 0)).toNat

/-- The row is written under this key, and no other row changes. -/
theorem rows_execReplace (table : NumberedTable Row) (values : Row) :
    (execReplace c table values).rows =
      Function.update table.rows (replacedKey c table values) (some values.tail) :=
  rfl

/-- The text of the only row of `SELECT MAX`; NULL is read as the empty text. -/
def maxText (table : NumberedTable Row) : Bytes :=
  match table.selectMax with
  | none => []
  | some key => c.ofInt key

/-- A call of one of the operations: the record, and the key of the row that the call wrote. -/
structure Call (Double : Type) where
  kind : Kind
  field : kind.Record Double
  key : ℕ

/-- The tables, the calls that wait for the rest of their operation, and those that have returned
true, with the record as it is then. -/
structure State (ι Double : Type) where
  db : Kind → NumberedTable Row
  calls : ι → Option (Call Double)
  returned : List (Call Double)

/-- No call has been made yet. -/
def start (db : Kind → NumberedTable Row) : State ι Double := ⟨db, fun _ ↦ none, []⟩

/-- What one client does next: the `REPLACE` of a call, the rest of the call, or one of the `Del`
operations. The flags say whether the server carries the statement out. -/
inductive Action (ι Double : Type)
  | replace (client : ι) (kind : Kind) (field : kind.Record Double) (accepted : Bool)
  | finish (client : ι) (answered : Bool)
  | delete (kind : Kind) (condition : ℕ → Row → Bool)

/-- The record of a call whose `SELECT MAX`, if it makes one, is answered. -/
def Call.finish (call : Call Double) (table : NumberedTable Row) : Call Double :=
  if call.kind.id call.field = 0 then
    { call with field := call.kind.setID call.field (c.toInt (maxText c table)) }
  else call

/-- The `REPLACE` of a call. A client that is in the middle of a call makes no other, and a call
that is refused its statement returns false. -/
def State.replace (state : State ι Double) (client : ι) (kind : Kind)
    (field : kind.Record Double) (accepted : Bool) : State ι Double :=
  match state.calls client, accepted with
  | none, true =>
    { state with
      db := Function.update state.db kind (execReplace c (state.db kind) (kind.values c field))
      calls := Function.update state.calls client
        (some ⟨kind, field, replacedKey c (state.db kind) (kind.values c field)⟩) }
  | _, _ => state

/-- The rest of a call: it returns false when it makes a `SELECT MAX` that is not answered, and true
otherwise. -/
def State.finish (state : State ι Double) (client : ι) (answered : Bool) : State ι Double :=
  match state.calls client with
  | none => state
  | some call =>
    { state with
      calls := Function.update state.calls client none
      returned := state.returned ++
        if call.kind.id call.field = 0 ∧ ¬ answered then []
        else [call.finish c (state.db call.kind)] }

/-- One of the `Del` operations. -/
def State.delete (state : State ι Double) (kind : Kind) (condition : ℕ → Row → Bool) :
    State ι Double :=
  { state with db := Function.update state.db kind ((state.db kind).delete condition) }

/-- One statement of one client. -/
def step (state : State ι Double) : Action ι Double → Except Empty (State ι Double)
  | .replace client kind field accepted => .ok (state.replace c client kind field accepted)
  | .finish client answered => .ok (state.finish c client answered)
  | .delete kind condition => .ok (state.delete kind condition)

/-! ### What a call writes and returns -/

theorem toInt_generatedID (id : ℤ) : c.toInt (generatedID c id) = max id 0 := by
  unfold generatedID
  split_ifs with hid
  · rw [← c.ofInt_zero, c.toInt_ofInt, max_eq_right hid]
  · rw [c.toInt_ofInt, max_eq_left (by omega)]

/-- The server reads the id of the record as the key, and a negative one as zero. -/
theorem toInt_column_values (kind : Kind) (field : kind.Record Double) :
    (c.toInt (Row.column (kind.values c field) 0)).toNat = (kind.id field).toNat := by
  rw [Kind.values_eq_cons]
  show (c.toInt (generatedID c (kind.id field))).toNat = _
  rw [toInt_generatedID]
  omega

/-- A record with a positive id overwrites the row with this id and no other. -/
theorem rows_execReplace_of_pos (table : NumberedTable Row) {kind : Kind}
    {field : kind.Record Double} (hid : 0 < kind.id field) :
    (execReplace c table (kind.values c field)).rows =
      Function.update table.rows (kind.id field).toNat (some (kind.values c field).tail) := by
  rw [rows_execReplace, replacedKey, toInt_column_values, table.keyFor_of_pos (by omega)]

/-- What a waiting call knows: it wrote a row under a positive key, which is the id of its record if
that is positive. -/
structure Call.Recorded (call : Call Double) : Prop where
  key_pos : 0 < call.key
  key_eq : 0 < call.kind.id call.field → call.kind.id call.field = call.key

theorem recorded_replace (table : NumberedTable Row) (kind : Kind) (field : kind.Record Double) :
    Call.Recorded ⟨kind, field, replacedKey c table (kind.values c field)⟩ where
  key_pos := table.keyFor_pos _
  key_eq := by
    show 0 < kind.id field → _
    intro hid
    have hkey : replacedKey c table (kind.values c field) = (kind.id field).toNat := by
      unfold replacedKey
      rw [toInt_column_values, table.keyFor_of_pos (by omega)]
    show kind.id field = replacedKey c table (kind.values c field)
    rw [hkey]
    omega

/-- The returned record identifies the row that the call wrote: it carries its key, and a further
call with this record overwrites this row and touches no other. -/
structure Call.Identifies (call : Call Double) : Prop where
  id_eq : call.kind.id call.field = call.key
  again : ∀ table, (execReplace c table (call.kind.values c call.field)).rows =
    Function.update table.rows call.key (some (call.kind.values c call.field).tail)

theorem identifies_iff {call : Call Double} (hkey : 0 < call.key) :
    call.Identifies c ↔ call.kind.id call.field = call.key := by
  refine ⟨Call.Identifies.id_eq, fun hid ↦ ⟨hid, fun table ↦ ?_⟩⟩
  have hpos : 0 < call.kind.id call.field := by omega
  rw [rows_execReplace_of_pos c table hpos, hid, Int.toNat_natCast]

/-- The largest key is returned as the number it is, and no key when there is none. -/
theorem toInt_maxText_eq_iff (hempty : c.toInt [] ≤ 0) (table : NumberedTable Row) {key : ℕ}
    (hkey : 0 < key) : c.toInt (maxText c table) = key ↔ table.Last key := by
  rw [← table.selectMax_eq_some_iff hkey]
  unfold maxText
  cases table.selectMax with
  | none => exact ⟨fun hid ↦ absurd hid (by show c.toInt [] ≠ key; omega), nofun⟩
  | some last =>
    show c.toInt (c.ofInt last) = key ↔ _
    rw [c.toInt_ofInt, Nat.cast_inj, Option.some_inj]

/-- When a call that waits for the rest of its operation gets the right id. -/
theorem identifies_finish_iff (hempty : c.toInt [] ≤ 0) {call : Call Double}
    (hrecorded : call.Recorded) (table : NumberedTable Row) :
    (call.finish c table).Identifies c ↔
      0 ≤ call.kind.id call.field ∧ (call.kind.id call.field = 0 → table.Last call.key) := by
  have hkey := hrecorded.key_pos
  unfold Call.finish
  split_ifs with hzero
  · refine (identifies_iff c (by exact hkey)).trans ?_
    show call.kind.id (call.kind.setID call.field (c.toInt (maxText c table))) = call.key ↔ _
    rw [Kind.id_setID, toInt_maxText_eq_iff c hempty table hkey]
    exact ⟨fun hlast ↦ ⟨Int.le_of_eq hzero.symm, fun _ ↦ hlast⟩, fun hboth ↦ hboth.2 hzero⟩
  · rw [identifies_iff c hkey]
    constructor
    · intro hid
      exact ⟨by omega, fun hid ↦ absurd hid hzero⟩
    · rintro ⟨hnonneg, -⟩
      exact hrecorded.key_eq (by omega)

/-! ### Runs -/

/-- Every waiting call is recorded. -/
def State.Sound (state : State ι Double) : Prop :=
  ∀ client call, state.calls client = some call → call.Recorded

/-- Every call that has returned true identifies its row. -/
def State.AllIdentify (state : State ι Double) : Prop :=
  ∀ call ∈ state.returned, call.Identifies c

/-- The rest of a call meets a record whose id is not negative and, if it is zero and the `SELECT
MAX` is answered, a table that contains the row of the call and none with a larger key. -/
def Settled (state : State ι Double) : Action ι Double → Prop
  | .finish client answered => ∀ call, state.calls client = some call →
      0 ≤ call.kind.id call.field ∧
        (call.kind.id call.field = 0 → answered = true → (state.db call.kind).Last call.key)
  | _ => True

/-- What a statement does to the calls. Either none returns true, and any call that is new is
recorded, or the rest of a waiting call returns true. -/
theorem step_cases {state next : State ι Double} {action : Action ι Double}
    (hstep : step c state action = .ok next) :
    (next.returned = state.returned ∧ Settled state action ∨ ∃ client answered call,
        action = .finish client answered ∧ state.calls client = some call ∧
        (call.kind.id call.field = 0 → answered = true) ∧
        next.returned = state.returned ++ [call.finish c (state.db call.kind)]) ∧
      ∀ client call, next.calls client = some call →
        state.calls client = some call ∨ call.Recorded := by
  -- one entry of the calls changes, to a recorded call or to none
  have hentry (client : ι) (entry : Option (Call Double))
      (hentry : ∀ call, entry = some call → call.Recorded) :
      ∀ other call, Function.update state.calls client entry other = some call →
        state.calls other = some call ∨ call.Recorded := by
    intro other call hcall
    by_cases hother : other = client
    · rw [hother, Function.update_self] at hcall
      exact .inr (hentry call hcall)
    · rw [Function.update_of_ne hother] at hcall
      exact .inl hcall
  cases action with
  | replace client kind field accepted =>
    obtain rfl := Except.ok.inj hstep
    unfold State.replace
    split
    · refine ⟨.inl ⟨rfl, trivial⟩, hentry client _ fun call hcall ↦ ?_⟩
      exact Option.some.inj hcall ▸ recorded_replace c (state.db kind) kind field
    · exact ⟨.inl ⟨rfl, trivial⟩, fun _ _ ↦ .inl⟩
  | finish client answered =>
    obtain rfl := Except.ok.inj hstep
    unfold State.finish
    split
    · rename_i hnone
      refine ⟨.inl ⟨rfl, fun call hcall ↦ ?_⟩, fun _ _ ↦ .inl⟩
      rw [hnone] at hcall
      cases hcall
    · rename_i call hcall
      refine ⟨?_, hentry client none fun _ hnone ↦ absurd hnone (Option.some_ne_none _).symm⟩
      by_cases hrefused : call.kind.id call.field = 0 ∧ ¬ answered
      · refine .inl ⟨by rw [if_pos hrefused, List.append_nil], fun other hother ↦ ?_⟩
        obtain rfl : call = other := Option.some.inj (hcall.symm.trans hother)
        exact ⟨Int.le_of_eq hrefused.1.symm, fun _ hanswered ↦ absurd hanswered hrefused.2⟩
      · refine .inr ⟨client, answered, call, rfl, hcall, fun hzero ↦ ?_, by rw [if_neg hrefused]⟩
        by_contra hanswered
        exact hrefused ⟨hzero, hanswered⟩
  | delete kind condition =>
    obtain rfl := Except.ok.inj hstep
    exact ⟨.inl ⟨rfl, trivial⟩, fun _ _ ↦ .inl⟩

theorem step_sound {state next : State ι Double} {action : Action ι Double}
    (hsound : state.Sound) (hstep : step c state action = .ok next) : next.Sound := by
  intro client call hcall
  exact ((step_cases c hstep).2 client call hcall).elim (hsound client call) id

/-- A step keeps all returned records right exactly when it is settled. -/
theorem step_allIdentify_iff (hempty : c.toInt [] ≤ 0) {state next : State ι Double}
    {action : Action ι Double} (hsound : state.Sound) (hstep : step c state action = .ok next) :
    next.AllIdentify c ↔ state.AllIdentify c ∧ Settled state action := by
  unfold State.AllIdentify
  rcases (step_cases c hstep).1 with ⟨hreturned, hsettled⟩ |
    ⟨client, answered, call, rfl, hcall, hanswered, hreturned⟩
  · rw [hreturned]
    exact (and_iff_left hsettled).symm
  · rw [hreturned, List.forall_mem_append, List.forall_mem_singleton,
      identifies_finish_iff c hempty (hsound client call hcall)]
    refine and_congr_right fun _ ↦ ⟨fun hright other hother ↦ ?_, fun hsettled ↦ ?_⟩
    · obtain rfl : call = other := Option.some.inj (hcall.symm.trans hother)
      exact ⟨hright.1, fun hzero _ ↦ hright.2 hzero⟩
    · have hright := hsettled call hcall
      exact ⟨hright.1, fun hzero ↦ hright.2 hzero (hanswered hzero)⟩

/-- A statement always takes effect. -/
theorem run_ok (state : State ι Double) (actions : List (Action ι Double)) :
    ∃ final, run (step c) state actions = .ok final := by
  cases hrun : run (step c) state actions with
  | ok final => exact ⟨final, rfl⟩
  | error fault => exact fault.elim

/-- In every run of any number of clients, the records that the calls return all identify the rows
that the calls wrote exactly when every rest of a call is settled. -/
theorem returned_ids_identify_iff (hempty : c.toInt [] ≤ 0) (db : Kind → NumberedTable Row)
    (actions : List (Action ι Double)) :
    ∃ final, run (step c) (start db) actions = .ok final ∧
      (final.AllIdentify c ↔ Guarded (step c) Settled (start db) actions) := by
  obtain ⟨final, hrun⟩ := run_ok c (start db) actions
  have hstart : (start db : State ι Double).AllIdentify c :=
    fun _ hcall ↦ absurd hcall List.not_mem_nil
  have hsound : (start db : State ι Double).Sound :=
    fun _ _ hnone ↦ absurd hnone (Option.some_ne_none _).symm
  refine ⟨final, hrun, ?_⟩
  rw [run_holds_iff_guarded (fun _ _ _ ↦ step_sound c)
    (fun _ _ _ ↦ step_allIdentify_iff c hempty) hsound hrun]
  exact and_iff_right hstart

/-- The ids of the records that were returned, with the keys of their rows. -/
def State.idsAndKeys (state : State ι Double) : List (ℤ × ℕ) :=
  state.returned.map fun call ↦ (call.kind.id call.field, call.key)

theorem allIdentify_iff_of_run {state : State ι Double} {actions : List (Action ι Double)}
    {pairs : List (ℤ × ℕ)}
    (hpairs : (run (step c) state actions).toOption.map State.idsAndKeys = some pairs)
    (hpos : ∀ pair ∈ pairs, 0 < pair.2) :
    ∃ final, run (step c) state actions = .ok final ∧
      (final.AllIdentify c ↔ ∀ pair ∈ pairs, pair.1 = pair.2) := by
  obtain ⟨final, hrun⟩ := run_ok c state actions
  have hids : final.idsAndKeys = pairs := by
    rw [hrun] at hpairs
    exact Option.some.inj hpairs
  refine ⟨final, hrun, ?_⟩
  subst hids
  unfold State.idsAndKeys at hpos ⊢
  rw [List.forall_mem_map] at hpos ⊢
  exact forall₂_congr fun call hcall ↦ identifies_iff c (hpos call hcall)

end Statements

section Examples

/-- A cloud order without an id. -/
def newOrder : CloudOrderField ℤ := default

/-- A trade counter with a negative id. -/
def negativeCounter : TradeCounterField :=
  { (default : TradeCounterField) with tradeCounterID := -5 }

/-- Empty tables. -/
def emptyTables : Kind → NumberedTable Row := fun _ ↦ .empty

/-- Two clients write cloud orders without ids, one after the other. -/
def oneAfterTheOther : List (Action ℕ ℤ) :=
  [.replace 0 .cloudOrder newOrder true, .finish 0 true, .replace 1 .cloudOrder newOrder true,
    .finish 1 true]

/-- The second call begins and ends between the statements of the first. -/
def oneInTheOther : List (Action ℕ ℤ) :=
  [.replace 0 .cloudOrder newOrder true, .replace 1 .cloudOrder newOrder true, .finish 1 true,
    .finish 0 true]

/-- Calls that do not overlap get the ids of their rows, and are settled. -/
theorem returned_ids_of_two_calls :
    ∃ final, run (step decimal) (start emptyTables) oneAfterTheOther = .ok final ∧
      final.AllIdentify decimal ∧
      Guarded (step decimal) Settled (start emptyTables) oneAfterTheOther := by
  obtain ⟨final, hrun, hids⟩ := allIdentify_iff_of_run decimal
    (by decide +kernel : (run (step decimal) (start emptyTables) oneAfterTheOther).toOption.map
      State.idsAndKeys = some [(1, 1), (2, 2)]) (by decide)
  obtain ⟨other, hother, hiff⟩ :=
    returned_ids_identify_iff decimal (Int.le_refl 0) emptyTables oneAfterTheOther
  obtain rfl : final = other := Except.ok.inj (hrun.symm.trans hother)
  have hall : final.AllIdentify decimal := hids.mpr (by decide)
  exact ⟨final, hrun, hall, hiff.mp hall⟩

/-- A record with a negative id is written under a new key and keeps its id. When two clients write
records without ids, and the `SELECT MAX` of the first comes last, both get the key of the
second. -/
theorem returned_ids_mixed_up :
    (∃ final, run (step decimal) (start emptyTables : State ℕ ℤ)
        [.replace 0 .tradeCounter negativeCounter true, .finish 0 true] = .ok final ∧
      ¬ final.AllIdentify decimal) ∧
    ∃ final, run (step decimal) (start emptyTables) oneInTheOther = .ok final ∧
      ¬ final.AllIdentify decimal := by
  constructor
  · obtain ⟨final, hrun, hids⟩ := allIdentify_iff_of_run decimal
      (by decide +kernel : (run (step decimal) (start emptyTables : State ℕ ℤ)
        [.replace 0 .tradeCounter negativeCounter true, .finish 0 true]).toOption.map
          State.idsAndKeys = some [(-5, 1)]) (by decide)
    exact ⟨final, hrun, fun hall ↦ absurd (hids.mp hall) (by decide)⟩
  · obtain ⟨final, hrun, hids⟩ := allIdentify_iff_of_run decimal
      (by decide +kernel : (run (step decimal) (start emptyTables) oneInTheOther).toOption.map
        State.idsAndKeys = some [(2, 2), (2, 1)]) (by decide)
    exact ⟨final, hrun, fun hall ↦ absurd (hids.mp hall) (by decide)⟩

end Examples

end TradeServers.DbLayer.GeneratedID
