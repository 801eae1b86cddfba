import TradeServers.StatementText
import TradeServers.Library.DecimalText

/-!
# The statements of the trading database layer

Every `Upd` operation of `CDBOperation` writes one record with a `REPLACE` statement that pastes the
texts of all columns between double quotes, in the order of the table's columns. Every `Get`
operation runs a `SELECT *` through `CRecordSet` and reads columns back by their index. This file
has the texts of these statements, what the server does with the first kind, and the ways in which
the `Get` operations go through the rows of a result set.
-/

set_option autoImplicit false
set_option relaxedAutoImplicit false

namespace TradeServers.DbLayer

open SqlLiteral

/-- A row of a table or of a result set: the texts of its columns, in order. -/
abbrev Row := List Bytes

/-- A column of a row by its index. -/
def Row.column (row : Row) (index : ℕ) : Bytes := row.getD index []

/-- `text[0]`; the byte behind the end of a `std::string` is NUL. -/
def firstByte (text : Bytes) : UInt8 := text.headD 0

/-- What the layer relies on of `boost::lexical_cast<std::string>` for `int` and `double` values and
of the helpers `toInt`, `toDouble` and `Greater`: a number that is written is read back. -/
structure Conversions (Double : Type) where
  ofInt : ℤ → Bytes
  ofDouble : Double → Bytes
  toInt : Bytes → ℤ
  toDouble : Bytes → Double
  greater : Double → Double → Bool
  ofInt_zero : ofInt 0 = ascii "0"
  toInt_ofInt : ∀ number, toInt (ofInt number) = number
  toDouble_ofDouble : ∀ number, toDouble (ofDouble number) = number

attribute [simp] Conversions.toInt_ofInt Conversions.toDouble_ofDouble

/-- Decimal text, for `double` values that are integers. -/
def decimal : Conversions ℤ where
  ofInt := DecimalText.intText
  ofDouble := DecimalText.intText
  toInt := DecimalText.readInt
  toDouble := DecimalText.readInt
  greater := fun first second ↦ decide (second < first)
  ofInt_zero := rfl
  toInt_ofInt := DecimalText.readInt_intText
  toDouble_ofDouble := DecimalText.readInt_intText

/-! ### The tables -/

/-- `INVESTOR_TABLE`. -/
def investorTable : Bytes := ascii "t_etp_investor"

/-- `INVEDTORSERVERPORTCONF_TABLE`. -/
def investorServerPortConfTable : Bytes := ascii "t_m_investorserverportconf"

/-- `PRODUCT_TABLE`. -/
def productTable : Bytes := ascii "t_etp_product"

/-- `INSTRUMENT_TABLE`. -/
def instrumentTable : Bytes := ascii "t_etp_instrument"

/-- `MARGINRATEMODEL_TABLE`. -/
def marginRateModelTable : Bytes := ascii "t_etp_marginratemodel"

/-- `MARGINRATE_TABLE`. -/
def marginRateTable : Bytes := ascii "t_etp_marginrate"

/-- `COMMISSIONRATEMODEL_TABLE`. -/
def commissionRateModelTable : Bytes := ascii "t_etp_commissionratemodel"

/-- `COMMISSIONRATE_TABLE`. -/
def commissionRateTable : Bytes := ascii "t_etp_commissionrate"

/-- `ORDER_TABLE`. -/
def orderTable : Bytes := ascii "t_etp_order"

/-- `TRADINGACCOUNT_TABLE`. -/
def tradingAccountTable : Bytes := ascii "t_etp_tradingaccount"

/-- `POSITION_TABLE`. -/
def positionTable : Bytes := ascii "t_etp_position"

/-- `CLOUDORDER_TABLE`. -/
def cloudOrderTable : Bytes := ascii "t_etp_cloudorder"

/-- `HISCLOUDORDER_TABLE`. -/
def hisCloudOrderTable : Bytes := ascii "t_etp_hiscloudorder"

/-- `CASHFLOW_TABLE`. -/
def cashFlowTable : Bytes := ascii "t_etp_cashflow"

/-- `INVESTORSETTLEMENTSHEET_TABLE`. -/
def investorSettlementSheetTable : Bytes := ascii "t_etp_investorsettlementsheet"

/-- `TRADERISKTMPL_TABLE`. -/
def tradeRiskTmplTable : Bytes := ascii "t_etp_traderisktmpl"

/-- `TRADECOUNTER_TABLE`. -/
def tradeCounterTable : Bytes := ascii "t_etp_tradecounter"

/-- `LASTTICK_TABLE`. -/
def lastTickTable : Bytes := ascii "t_etp_lasttick"

/-- `EXCHANGE_TABLE`. -/
def exchangeTable : Bytes := ascii "t_etp_exchange"

/-- `BROKER_TABLE`. -/
def brokerTable : Bytes := ascii "t_etp_broker"

/-- `TRADE_TABLE`. -/
def tradeTable : Bytes := ascii "t_etp_trade"

/-- `POSITIONDETAIL_TABLE`. -/
def positionDetailTable : Bytes := ascii "t_etp_positiondetail"

/-- `HISCASHFLOW_TABLE`. -/
def hisCashFlowTable : Bytes := ascii "t_etp_hiscashflow"

/-- `INVESTORSETTLEMENTCASH_TABLE`. -/
def investorSettlementCashTable : Bytes := ascii "t_etp_investorsettlementcash"

/-- `SETTLEMENTCONFIRMINFO_TABLE`. -/
def settlementConfirmInfoTable : Bytes := ascii "t_etp_settlementconfirminfo"

/-- `HISPOSITION_TABLE`. -/
def hisPositionTable : Bytes := ascii "t_etp_hisposition"

/-- `HISORDER_TABLE`. -/
def hisOrderTable : Bytes := ascii "t_etp_hisorder"

/-- `HISTRADE_TABLE`. -/
def hisTradeTable : Bytes := ascii "t_etp_histrade"

/-- `DSF_TABLE`. -/
def dsfTable : Bytes := ascii "t_etp_dailysettlementflag"

/-- `AUTOSTOPLOSS_TABLE`. -/
def autoStopLossTable : Bytes := ascii "t_m_AutoStopLoss"

/-- `EXECORDER_TABLE`. -/
def execOrderTable : Bytes := ascii "t_etp_execorder"

/-- `HISEXECORDER_TABLE`. -/
def hisExecOrderTable : Bytes := ascii "t_etp_hisexecorder"

/-- The tables whose first column is an id that the server generates when it is given as `0`. -/
def numberedTables : List Bytes :=
  [investorTable, cashFlowTable, cloudOrderTable, hisCloudOrderTable, tradeCounterTable]

/-- A row for which the server generates the id. -/
def DrawsID (table : Bytes) (values : Row) : Prop :=
  table ∈ numberedTables ∧ values.column 0 = ascii "0"

instance (table : Bytes) (values : Row) : Decidable (DrawsID table values) :=
  inferInstanceAs (Decidable (_ ∧ _))

/-! ### Writing a row -/

/-- The text in front of the values of a `REPLACE` statement. -/
def replaceHead (table : Bytes) : Bytes := ascii "REPLACE INTO `" ++ table ++ ascii "` VALUES ( "

/-- The text of a `REPLACE` statement of the layer. -/
def replaceText (table : Bytes) (values : Row) : Bytes :=
  replaceHead table ++ ascii "\"" ++ List.intercalate (ascii "\", \"") values ++ ascii "\" );"

/-- Values with the text that follows each of them in a `REPLACE` statement. -/
def valueList : Row → List (Bytes × Bytes)
  | [] => []
  | [value] => [(value, ascii " );")]
  | value :: next :: values => (value, ascii ", ") :: valueList (next :: values)

/-- The statement that a `REPLACE` of the layer is meant to be. -/
def replaceStatement (table : Bytes) (values : Row) : Statement where
  head := replaceHead table
  tail := valueList values

theorem literals_replaceStatement (table : Bytes) (values : Row) :
    (replaceStatement table values).literals = values := by
  unfold replaceStatement Statement.literals
  induction values using valueList.induct with
  | case1 => rfl
  | case2 value => rfl
  | case3 value next values ih =>
    rw [valueList, List.map_cons, ih]

theorem unquoted_replaceHead {table : Bytes} (htable : Unquoted table) :
    Unquoted (replaceHead table) :=
  ((by decide +kernel : Unquoted (ascii "REPLACE INTO `")).append htable).append
    (by decide +kernel : Unquoted (ascii "` VALUES ( "))

/-- The values of a `REPLACE` statement as they are pasted. -/
def pastedValues (values : Row) : List Pasted :=
  (valueList values).map fun entry ↦ .plain entry.1 entry.2

/-- The quotes of the statement text stand around the values. -/
theorem pastedValues_text (value : Bytes) (values : Row) :
    (pastedValues (value :: values)).flatMap Pasted.text =
      ascii "\"" ++ List.intercalate (ascii "\", \"") (value :: values) ++ ascii "\" );" := by
  induction values generalizing value with
  | nil => simp [pastedValues, valueList, Pasted.text, Pasted.plain, List.intercalate,
      show ascii "\" );" = doubleQuote :: ascii " );" from rfl,
      show ascii "\"" = [doubleQuote] from rfl]
  | cons next values ih =>
    have hnext : ascii "\", \"" = doubleQuote :: (ascii ", " ++ ascii "\"") := rfl
    have hvalues : pastedValues (value :: next :: values) =
        .plain value (ascii ", ") :: pastedValues (next :: values) := rfl
    rw [hvalues, List.flatMap_cons, ih]
    simp [Pasted.text, Pasted.plain, List.intercalate, hnext,
      show ascii "\"" = [doubleQuote] from rfl]

theorem faithful_pastedValues {values : Row} (hclean : ∀ value ∈ values, Clean doubleQuote value) :
    Faithful (pastedValues values) := by
  induction values using valueList.induct with
  | case1 => exact trivial
  | case2 value =>
    have hvalue := hclean value List.mem_cons_self
    have hpiece : Unquoted (ascii " );") := by decide
    exact ⟨Pasted.plain_faithful hvalue hpiece.double hpiece.single, fun _ ↦ rfl, trivial⟩
  | case3 value next values ih =>
    have hvalue := hclean value List.mem_cons_self
    have hpiece : Unquoted (ascii ", ") := by decide
    exact ⟨Pasted.plain_faithful hvalue hpiece.double hpiece.single, nofun,
      ih fun other hother ↦ hclean other (.tail _ hother)⟩

/-- A `REPLACE` statement with clean values is read as the statement it is meant to be. -/
theorem lex_replaceText {table : Bytes} (htable : Unquoted table) {values : Row}
    (hvalues : values ≠ []) (hclean : ∀ value ∈ values, Clean doubleQuote value) :
    lex (replaceText table values) = some (replaceStatement table values) := by
  obtain ⟨value, values, rfl⟩ := List.exists_cons_of_ne_nil hvalues
  have htext : replaceText table (value :: values) =
      paste (replaceHead table) (pastedValues (value :: values)) := by
    rw [paste, pastedValues_text, replaceText, List.append_assoc, List.append_assoc,
      List.append_assoc]
  have hhead := unquoted_replaceHead htable
  rw [htext, lex_paste hhead.double hhead.single (faithful_pastedValues hclean)]
  simp [replaceStatement, pastedValues, Pasted.plain, Function.comp_def]

/-- What the layer relies on of a server: a `REPLACE` statement of the layer leaves a row with its
values, positionally, in the table, unless the server has to generate the id. `rows` is the content
of a table by its name. -/
structure TableServer (σ : Type) where
  exec : σ → Bytes → σ
  rows : σ → Bytes → List Row
  replace : ∀ db text table values, ¬ DrawsID table values →
    lex text = some (replaceStatement table values) → values ∈ rows (exec db text) table

/-- A server whose state is its tables, and which generates no ids. `sameKey` says of two rows of a
table that they agree in one of its unique keys: such a row gives way to the new one. -/
def TableServer.ofTables (sameKey : Bytes → Row → Row → Bool) : TableServer (Bytes → List Row) where
  exec := fun tables text table ↦
    match lex text with
    | none => tables table
    | some statement =>
      if statement.head = replaceHead table then
        (tables table).filter (fun row ↦ !sameKey table row statement.literals) ++
          [statement.literals]
      else tables table
  rows := id
  replace := by
    intro tables text table values _ hlex
    have hhead : (replaceStatement table values).head = replaceHead table := rfl
    simp only [hlex, id, hhead, if_true, literals_replaceStatement]
    exact List.mem_append_right _ (List.mem_singleton_self _)

/-! ### Reading rows -/

/-- `column = 'value'` in the condition of a `SELECT`. -/
def equals (column : String) (value : Bytes) : Bytes :=
  ascii column ++ ascii " = '" ++ value ++ ascii "'"

/-- The text of a `SELECT *` of the layer. -/
def selectText (table : Bytes) (conditions : List Bytes) : Bytes :=
  ascii "SELECT * FROM `" ++ table ++ ascii "`" ++
    (if conditions = [] then []
      else ascii " WHERE " ++ List.intercalate (ascii " AND ") conditions) ++ ascii ";"

/-- The answer of a server to a `SELECT` text: the rows of the result set, or none for an error. -/
abbrev Select := Bytes → Option (List Row)

/-- `CRecordSet::ExecuteSQL`: the statement and the columns of the result go through C strings. -/
def executeSQL (select : Select) (sql : Bytes) : Option (List Row) :=
  (select (cString sql)).map fun rows ↦ rows.map fun row ↦ row.map cString

/-- A result set that the caller gives up on when it has no rows. -/
def nonEmpty (rows : Option (List Row)) : Option (List Row) := rows.filter (· ≠ [])

theorem nonEmpty_of_mem {row : Row} {rows : List Row} (hrow : row ∈ rows) :
    nonEmpty (some rows) = some rows := by
  unfold nonEmpty
  rw [Option.filter_some, if_pos (by simpa using List.ne_nil_of_mem hrow)]

section Readers

variable {ρ : Type} (assign : ρ → Row → ρ)

/-- Reading row 0 into the record `field`, whose remaining fields stay. -/
def readFirst (field : ρ) (rows : Option (List Row)) : Option ρ :=
  (nonEmpty rows).map fun rows ↦ assign field (rows.headD [])

/-- Reading every row into the same record, one after the other. -/
def readLast (field : ρ) (rows : Option (List Row)) : Option ρ :=
  (nonEmpty rows).map fun rows ↦ rows.foldl assign field

/-- A result set that consists of one row only, possibly several times. -/
theorem readFirst_of_forall_eq {row : Row} {rows : List Row} (hrow : row ∈ rows)
    (hone : ∀ other ∈ rows, other = row) (field : ρ) :
    readFirst assign field (some rows) = some (assign field row) := by
  obtain ⟨head, tail, rfl⟩ := List.exists_cons_of_ne_nil (List.ne_nil_of_mem hrow)
  rw [readFirst, nonEmpty_of_mem hrow, Option.map_some, List.headD_cons,
    hone head List.mem_cons_self]

theorem readLast_of_forall_eq {row : Row} {rows : List Row} (hrow : row ∈ rows)
    (hone : ∀ other ∈ rows, other = row) (field : ρ) :
    ∃ before, readLast assign field (some rows) = some (assign before row) := by
  have hne := List.ne_nil_of_mem hrow
  have hlast : rows = rows.dropLast ++ [row] := by
    conv_lhs => rw [← List.dropLast_append_getLast hne, hone _ (List.getLast_mem hne)]
  refine ⟨rows.dropLast.foldl assign field, ?_⟩
  rw [readLast, nonEmpty_of_mem hrow, Option.map_some]
  conv_lhs => rw [hlast, List.foldl_append]
  rfl

/-- The loop over a result set: every row is read into the same record, which is then appended to
the result. -/
def readRows : ρ → List Row → List ρ
  | _, [] => []
  | field, row :: rows => assign field row :: readRows (assign field row) rows

/-- Every row of the result set is read into some record. -/
theorem mem_readRows {row : Row} {rows : List Row} (hrow : row ∈ rows) (field : ρ) :
    ∃ before, assign before row ∈ readRows assign field rows := by
  induction rows generalizing field with
  | nil => nomatch hrow
  | cons next rows ih =>
    rcases List.mem_cons.mp hrow with rfl | htail
    · exact ⟨field, List.mem_cons_self⟩
    · obtain ⟨before, hmem⟩ := ih htail (assign field next)
      exact ⟨before, List.mem_cons_of_mem _ hmem⟩

end Readers

end TradeServers.DbLayer
