import TradeServers.DbLayer.Statement

/-!
# Statements with conditions

The trading database layer pastes the values of a condition between the single quotes of its
`SELECT` and `DELETE` texts. A `Query` is such a statement with its comparisons kept apart: its text
(`Query.text`) is what the layer sends, and its literals are the values that were meant
(`Query.literals_statement`).
-/

set_option autoImplicit false
set_option relaxedAutoImplicit false

namespace TradeServers.DbLayer

open SqlLiteral

/-- A text of the source around the values: it contains neither quotes nor NULs. -/
structure Fixed (text : Bytes) : Prop extends Unquoted text where
  nul : 0 ∉ text

instance (text : Bytes) : Decidable (Fixed text) :=
  decidable_of_iff (Unquoted text ∧ 0 ∉ text)
    ⟨fun hboth ↦ ⟨hboth.1, hboth.2⟩, fun hfixed ↦ ⟨hfixed.toUnquoted, hfixed.nul⟩⟩

theorem Fixed.append {first second : Bytes} (hfirst : Fixed first) (hsecond : Fixed second) :
    Fixed (first ++ second) :=
  ⟨hfirst.toUnquoted.append hsecond.toUnquoted,
    fun hmem ↦ (List.mem_append.mp hmem).elim hfirst.nul hsecond.nul⟩

theorem fixed_nil : Fixed [] := by decide

theorem fixed_backtick : Fixed (ascii "`") := by decide

theorem fixed_select : Fixed (ascii "SELECT * FROM `") := by decide +kernel

/-! ### Tables and columns -/

/-- The tables, by the constants of the layer. -/
inductive TableName
  | investor
  | investorServerPortConf
  | exchange
  | broker
  | product
  | instrument
  | marginRateModel
  | marginRate
  | commissionRateModel
  | commissionRate
  | order
  | hisOrder
  | trade
  | hisTrade
  | tradingAccount
  | position
  | hisPosition
  | positionDetail
  | cloudOrder
  | hisCloudOrder
  | cashFlow
  | hisCashFlow
  | investorSettlementCash
  | investorSettlementSheet
  | settlementConfirmInfo
  | lastTick
  | dsf
  | autoStopLoss
  | tradeRiskTmpl
  | tradeCounter
  | execOrder
  | hisExecOrder

/-- The name of a table. -/
def TableName.text : TableName → Bytes
  | investor => investorTable
  | investorServerPortConf => investorServerPortConfTable
  | exchange => exchangeTable
  | broker => brokerTable
  | product => productTable
  | instrument => instrumentTable
  | marginRateModel => marginRateModelTable
  | marginRate => marginRateTable
  | commissionRateModel => commissionRateModelTable
  | commissionRate => commissionRateTable
  | order => orderTable
  | hisOrder => hisOrderTable
  | trade => tradeTable
  | hisTrade => hisTradeTable
  | tradingAccount => tradingAccountTable
  | position => positionTable
  | hisPosition => hisPositionTable
  | positionDetail => positionDetailTable
  | cloudOrder => cloudOrderTable
  | hisCloudOrder => hisCloudOrderTable
  | cashFlow => cashFlowTable
  | hisCashFlow => hisCashFlowTable
  | investorSettlementCash => investorSettlementCashTable
  | investorSettlementSheet => investorSettlementSheetTable
  | settlementConfirmInfo => settlementConfirmInfoTable
  | lastTick => lastTickTable
  | dsf => dsfTable
  | autoStopLoss => autoStopLossTable
  | tradeRiskTmpl => tradeRiskTmplTable
  | tradeCounter => tradeCounterTable
  | execOrder => execOrderTable
  | hisExecOrder => hisExecOrderTable

theorem TableName.fixed_text (table : TableName) : Fixed table.text := by
  cases table <;> decide +kernel

/-- The columns that conditions compare with a value. -/
inductive Column
  | id
  | capitalID
  | brokerID
  | investorID
  | exchangeID
  | productID
  | instrumentID
  | marginRateModelID
  | commissionRateModelID
  | tradingDay
  | posiDirection
  | direction
  | hedgeFlag
  | position
  | status
  | cashFlowID
  | isHandled
  | openDate
  | tradeID
  | volume
  | clientType

/-- The name of a column. -/
def Column.name : Column → String
  | id => "id"
  | capitalID => "ID"
  | brokerID => "BrokerID"
  | investorID => "InvestorID"
  | exchangeID => "ExchangeID"
  | productID => "ProductID"
  | instrumentID => "InstrumentID"
  | marginRateModelID => "MarginRateModelID"
  | commissionRateModelID => "CommissionRateModelID"
  | tradingDay => "TradingDay"
  | posiDirection => "PosiDirection"
  | direction => "Direction"
  | hedgeFlag => "HedgeFlag"
  | position => "Position"
  | status => "status"
  | cashFlowID => "CashFlowID"
  | isHandled => "IsHandled"
  | openDate => "OpenDate"
  | tradeID => "TradeID"
  | volume => "Volume"
  | clientType => "ClientType"

theorem Column.fixed_name (column : Column) : Fixed (ascii column.name) := by
  cases column <;> decide

/-! ### Comparisons -/

/-- A comparison in a condition: the text in front of the value, and the value, which stands between
single quotes. -/
structure Comparison where
  front : Bytes
  value : Bytes
  fixed : Fixed front

/-- `column = 'value'`. -/
def Comparison.is (column : Column) (value : Bytes) : Comparison :=
  ⟨ascii column.name ++ ascii " = ", value, column.fixed_name.append (by decide)⟩

/-- `status <> '0'`. -/
def Comparison.statusNonzero : Comparison := ⟨ascii "status <> ", ascii "0", by decide⟩

/-- `id BETWEEN 'from' AND 'to'`. -/
def idBetween (low high : Bytes) : List Comparison :=
  [⟨ascii "id BETWEEN ", low, by decide⟩, ⟨[], high, fixed_nil⟩]

/-- The condition of most operations on the rows of one account. -/
def ofInvestor (brokerID investorID : Bytes) : List Comparison :=
  [.is .brokerID brokerID, .is .investorID investorID]

/-- The text of a comparison. -/
def Comparison.text (comparison : Comparison) : Bytes :=
  comparison.front ++ ascii "'" ++ comparison.value ++ ascii "'"

theorem Comparison.text_is (column : Column) (value : Bytes) :
    (Comparison.is column value).text = equals column.name value := by
  have hopen : ascii " = '" = ascii " = " ++ ascii "'" := rfl
  simp [text, is, equals, hopen]

/-! ### Statements -/

/-- A statement with a condition: the text in front of `WHERE`, and the comparisons. Without
comparisons there is no `WHERE`. -/
structure Query where
  head : Bytes
  comparisons : List Comparison
  fixed : Fixed head

/-- The condition of a statement. -/
def Query.condition : List Comparison → Bytes
  | [] => []
  | first :: rest => ascii " WHERE " ++
      List.intercalate (ascii " AND ") ((first :: rest).map Comparison.text)

/-- The text of a statement with a condition. -/
def Query.text (query : Query) : Bytes :=
  query.head ++ condition query.comparisons ++ ascii ";"

/-- The values of the comparisons, with the text that follows each of them. -/
def Query.entries : List Comparison → List (Bytes × Bytes)
  | [] => []
  | [last] => [(last.value, ascii ";")]
  | first :: next :: rest => (first.value, ascii " AND " ++ next.front) :: entries (next :: rest)

/-- The statement that a text is meant to be: its literals are the values of the comparisons. -/
def Query.statement (query : Query) : Statement where
  head := query.head ++ match query.comparisons with
    | [] => ascii ";"
    | first :: _ => ascii " WHERE " ++ first.front
  tail := entries query.comparisons

theorem Query.literals_statement (query : Query) :
    query.statement.literals = query.comparisons.map Comparison.value := by
  unfold Statement.literals statement
  generalize query.comparisons = comparisons
  induction comparisons using entries.induct with
  | case1 => rfl
  | case2 last => rfl
  | case3 first next rest ih =>
    rw [entries, List.map_cons, List.map_cons, ih]

/-- A statement around the name of a table. -/
def Query.around (front : Bytes) (table : TableName) (back : Bytes) (comparisons : List Comparison)
    (hfront : Fixed front) (hback : Fixed back) : Query where
  head := front ++ table.text ++ back
  comparisons := comparisons
  fixed := (hfront.append table.fixed_text).append hback

/-- `SELECT *` from a table. -/
def Query.select (table : TableName) (comparisons : List Comparison) : Query :=
  .around (ascii "SELECT * FROM `") table (ascii "`") comparisons fixed_select fixed_backtick

/-- `DELETE` from a table. -/
def Query.delete (table : TableName) (comparisons : List Comparison) : Query :=
  .around (ascii "DELETE FROM `") table (ascii "`") comparisons (by decide +kernel) fixed_backtick

theorem Query.text_select (table : TableName) (comparisons : List Comparison) :
    (Query.select table comparisons).text =
      selectText table.text (comparisons.map Comparison.text) := by
  cases comparisons <;> rfl

end TradeServers.DbLayer
