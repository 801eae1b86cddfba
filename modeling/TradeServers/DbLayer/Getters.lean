import TradeServers.DbLayer.Records
import TradeServers.DbLayer.Queries

/-!
# The getters of the trading database layer

Every `Get` operation of `CDBOperation` that reads whole records of one of the tables is a `Getter`
here: the `SELECT` it runs (`Getter.query`), the assignments it makes for a row (`Getter.assign`),
and how it goes through the result set (`Getter.reading`). `Getter.get` puts them together. The
names are those of the source; where it overloads a name, the arguments tell the overloads apart.

`GetSettlementSheet` returns a text instead of a record and stands for itself.
-/

set_option autoImplicit false
set_option relaxedAutoImplicit false

namespace TradeServers.DbLayer

/-! ### Tables and their writers -/

/-- The tables of the layer that are modelled. -/
inductive Table
  | investor
  | product
  | instrument
  | marginRate
  | commissionRate
  | order
  | tradingAccount
  | position
  | cloudOrder
  | cashFlow
  | settlementSheet
  | tradeRiskTmpl
  | tradeCounter
  | lastTick
deriving DecidableEq

/-- The records of a table. -/
@[reducible]
def Table.Record (Double : Type) : Table → Type
  | investor => InvestorInfoField Double
  | product => ProductInfoField Double
  | instrument => InstrumentInfoField Double
  | marginRate => MarginRateInfoField Double
  | commissionRate => CommissionRateInfoField Double
  | order => OrderField Double
  | tradingAccount => TradingAccountField Double
  | position => InvestorPositionField Double
  | cloudOrder => CloudOrderField Double
  | cashFlow => CashFlowField Double
  | settlementSheet => SettlementSheetField
  | tradeRiskTmpl => TradeRiskTmplField
  | tradeCounter => TradeCounterField
  | lastTick => DepthMarketDataField Double

/-- The table in a statement. -/
def Table.tableName : Table → TableName
  | investor => .investor
  | product => .product
  | instrument => .instrument
  | marginRate => .marginRate
  | commissionRate => .commissionRate
  | order => .order
  | tradingAccount => .tradingAccount
  | position => .position
  | cloudOrder => .cloudOrder
  | cashFlow => .cashFlow
  | settlementSheet => .investorSettlementSheet
  | tradeRiskTmpl => .tradeRiskTmpl
  | tradeCounter => .tradeCounter
  | lastTick => .lastTick

/-- The name of a table. -/
def Table.name (table : Table) : Bytes := table.tableName.text

theorem Table.unquoted_name (table : Table) : Unquoted table.name :=
  table.tableName.fixed_text.toUnquoted

section Writers

variable {Double : Type} (c : Conversions Double)

/-- The texts that the `Upd` operation of a table pastes. -/
def Table.values : (table : Table) → table.Record Double → Row
  | investor, field => InvestorInfoField.values c field
  | product, field => ProductInfoField.values c field
  | instrument, field => InstrumentInfoField.values c field
  | marginRate, field => MarginRateInfoField.values c field
  | commissionRate, field => CommissionRateInfoField.values c field
  | order, field => OrderField.values c field
  | tradingAccount, field => TradingAccountField.values c field
  | position, field => InvestorPositionField.values c field
  | cloudOrder, field => CloudOrderField.values c field
  | cashFlow, field => CashFlowField.values c field
  | settlementSheet, field => SettlementSheetField.values c field
  | tradeRiskTmpl, field => TradeRiskTmplField.values c field
  | tradeCounter, field => TradeCounterField.values c field
  | lastTick, field => DepthMarketDataField.values c field

/-- The statement of the `Upd` operation of a table. -/
def Table.upd : (table : Table) → table.Record Double → Bytes
  | investor, field => updInvestorInfo c field
  | product, field => updProductInfo c field
  | instrument, field => updInstrumentInfo c field
  | marginRate, field => updMarginRateInfo c field
  | commissionRate, field => updCommissionRateInfo c field
  | order, field => updOrder c field
  | tradingAccount, field => updTradingAccount c field
  | position, field => updPosition c field
  | cloudOrder, field => updCloudOrder c field
  | cashFlow, field => updCashFlow c field
  | settlementSheet, field => updSettlementSheet c field
  | tradeRiskTmpl, field => updTradeRiskTmpl c field
  | tradeCounter, field => updTradeCounter c field
  | lastTick, field => updLastTick c field

theorem Table.upd_eq (table : Table) (field : table.Record Double) :
    table.upd c field = replaceText table.name (table.values c field) := by
  cases table <;> rfl

theorem Table.values_ne_nil (table : Table) (field : table.Record Double) :
    table.values c field ≠ [] := by
  cases table <;> exact List.cons_ne_nil _ _

/-- The id of the record, where the table has generated ids, is positive. -/
def Table.HasID : (table : Table) → table.Record Double → Prop
  | investor, field => 0 < InvestorInfoField.id field
  | cloudOrder, field => 0 < CloudOrderField.cloudOrderID field
  | cashFlow, field => 0 < CashFlowField.cashFlowID field
  | tradeCounter, field => 0 < TradeCounterField.tradeCounterID field
  | _, _ => True

end Writers

/-! ### The getters -/

/-- The getters that read whole records of a table, with their arguments. -/
inductive Getter : Table → Type
  | getInvestorInfo (brokerID investorID : Bytes) : Getter .investor
  | getInvestorInfoByID (id : ℤ) : Getter .investor
  | getInvestorInfos : Getter .investor
  | getInvestorInfosOfServer (serverID : Bytes) : Getter .investor
  | getProductInfo (productID : Bytes) : Getter .product
  | getProductInfos : Getter .product
  | getInstrumentInfo (instrumentID : Bytes) : Getter .instrument
  | getInstrumentInfos : Getter .instrument
  | getMarginRateInfo (modelid : ℤ) (instrumentID : Bytes) : Getter .marginRate
  | getMarginRateInfosOfModel (modelid : ℤ) : Getter .marginRate
  | getMarginRateInfos : Getter .marginRate
  | getCommissionRateInfo (modelid : ℤ) (instrumentID : Bytes) : Getter .commissionRate
  | getCommissionRateInfosOfModel (modelid : ℤ) : Getter .commissionRate
  | getCommissionRateInfos : Getter .commissionRate
  | getOrder (brokerID investorID tradingDay : Bytes) : Getter .order
  | getAllOrderOfDay (tradingDay : Bytes) : Getter .order
  | getAllOrderOfInstrument (tradingDay instrumentID : Bytes) : Getter .order
  | getAllOrder : Getter .order
  | getTradingAccount (brokerID investorID : Bytes) : Getter .tradingAccount
  | getPositions (brokerID investorID : Bytes) : Getter .position
  | getAllPositions : Getter .position
  | getPosition (brokerID investorID instrumentID posiDirection : Bytes) : Getter .position
  | getPositionsOfInstrument (instrumentID : Bytes) : Getter .position
  | getCloudOrder (brokerID investorID : Bytes) : Getter .cloudOrder
  | getAllCloudOrder : Getter .cloudOrder
  | getInvalidCloudOrder : Getter .cloudOrder
  | getUnHandleCashFlow : Getter .cashFlow
  | getCashFlow (brokerID investorID : Bytes) : Getter .cashFlow
  | getAllCashFlow : Getter .cashFlow
  | getTradeRiskTmpl (brokerID investorID : Bytes) (clientType : ℤ) : Getter .tradeRiskTmpl
  | getTradeCounter : Getter .tradeCounter
  | getLastTick (tradingDay exchangeID instrumentID : Bytes) : Getter .lastTick
  | getLastTicks (tradingDay : Bytes) : Getter .lastTick

/-- How a getter goes through its result set: it reads row 0, or every row into one record, or every
row into a record of its own. Some getters of the last kind accept an empty result. -/
inductive Reading
  | first
  | last
  | each (acceptsNone : Bool)
deriving DecidableEq

namespace Getter

variable {table : Table}

/-- How a getter goes through its result set. -/
def reading : Getter table → Reading
  | getInvestorInfo _ _ | getInvestorInfoByID _ | getProductInfo _ | getInstrumentInfo _
  | getMarginRateInfo _ _ | getCommissionRateInfo _ _ | getTradingAccount _ _
  | getPosition _ _ _ _ | getLastTick _ _ _ => .first
  | getTradeRiskTmpl _ _ _ => .last
  | getOrder _ _ _ | getAllOrderOfDay _ | getAllOrderOfInstrument _ _ | getAllOrder
  | getUnHandleCashFlow | getCashFlow _ _ | getAllCashFlow => .each true
  | getInvestorInfos | getInvestorInfosOfServer _ | getProductInfos | getInstrumentInfos
  | getMarginRateInfosOfModel _ | getMarginRateInfos | getCommissionRateInfosOfModel _
  | getCommissionRateInfos | getPositions _ _ | getAllPositions | getPositionsOfInstrument _
  | getCloudOrder _ _ | getAllCloudOrder | getInvalidCloudOrder | getTradeCounter
  | getLastTicks _ => .each false

variable {Double : Type} (c : Conversions Double) (select : Select)

/-- The lookup that a getter makes first: the getter of a server's investors asks for the range of
their ids. -/
def lookup : Getter table → Option Query
  | getInvestorInfosOfServer serverID =>
    some <| .select .investorServerPortConf [.is .id serverID]
  | _ => none

/-- The statement whose rows a getter reads. The getter of a server's investors gives up when it
finds no range of ids. -/
def query : Getter table → Option Query
  | getInvestorInfo brokerID investorID => some <|
    .select .investor (ofInvestor brokerID investorID)
  | getInvestorInfoByID id => some <| .select .investor [.is .capitalID (c.ofInt id)]
  | getInvestorInfos => some <| .select .investor []
  | getInvestorInfosOfServer serverID =>
    let conf := Query.select .investorServerPortConf [.is .id serverID]
    (nonEmpty (executeSQL select conf.text)).map fun rows ↦
      let row := rows.headD []
      .select .investor (idBetween (row.column 1) (row.column 2))
  | getProductInfo productID => some <| .select .product [.is .productID productID]
  | getProductInfos => some <| .select .product []
  | getInstrumentInfo instrumentID => some <|
    .select .instrument [.is .instrumentID instrumentID]
  | getInstrumentInfos => some <| .select .instrument []
  | getMarginRateInfo _ instrumentID => some <|
    .select .marginRate [.is .instrumentID instrumentID]
  | getMarginRateInfosOfModel _ | getMarginRateInfos => some <| .select .marginRate []
  | getCommissionRateInfo _ instrumentID => some <|
    .select .commissionRate [.is .instrumentID instrumentID]
  | getCommissionRateInfosOfModel _ | getCommissionRateInfos => some <|
    .select .commissionRate []
  | getOrder brokerID investorID tradingDay => some <|
    .select .order (ofInvestor brokerID investorID ++ [.is .tradingDay tradingDay])
  | getAllOrderOfDay tradingDay => some <| .select .order [.is .tradingDay tradingDay]
  | getAllOrderOfInstrument tradingDay instrumentID => some <|
    .select .order [.is .tradingDay tradingDay, .is .instrumentID instrumentID]
  | getAllOrder => some <| .select .order []
  | getTradingAccount brokerID investorID => some <|
    .select .tradingAccount (ofInvestor brokerID investorID)
  | getPositions brokerID investorID => some <|
    .select .position (ofInvestor brokerID investorID)
  | getAllPositions => some <| .select .position []
  | getPosition brokerID investorID instrumentID posiDirection => some <|
    .select .position (ofInvestor brokerID investorID ++
      [.is .instrumentID instrumentID, .is .posiDirection posiDirection])
  | getPositionsOfInstrument instrumentID => some <|
    .select .position [.is .instrumentID instrumentID]
  | getCloudOrder brokerID investorID => some <|
    .select .cloudOrder (ofInvestor brokerID investorID)
  | getAllCloudOrder => some <| .select .cloudOrder []
  | getInvalidCloudOrder => some <| .select .cloudOrder [.statusNonzero]
  | getUnHandleCashFlow => some <| .select .cashFlow [.is .isHandled (ascii "0")]
  | getCashFlow brokerID investorID => some <|
    .select .cashFlow (ofInvestor brokerID investorID)
  | getAllCashFlow => some <| .select .cashFlow []
  | getTradeRiskTmpl brokerID investorID clientType => some <|
    .select .tradeRiskTmpl
      (ofInvestor brokerID investorID ++ [.is .clientType (c.ofInt clientType)])
  | getTradeCounter => some <| .select .tradeCounter []
  | getLastTick tradingDay exchangeID instrumentID => some <|
    .select .lastTick
      [.is .tradingDay tradingDay, .is .exchangeID exchangeID, .is .instrumentID instrumentID]
  | getLastTicks tradingDay => some <| .select .lastTick [.is .tradingDay tradingDay]

/-- The text of the statement whose rows a getter reads. -/
def sql (getter : Getter table) : Option Bytes := (getter.query c select).map Query.text

/-- All statements of a getter. -/
def queries (getter : Getter table) : List Query :=
  getter.lookup.toList ++ (getter.query c select).toList

/-- The result set of a getter. -/
def resultSet (getter : Getter table) : Option (List Row) :=
  (getter.sql c select).bind (executeSQL select)

end Getter

/-- What `UpdInvestorInfo` leaves in its record: after the statement it reads the record of the
account again. -/
def rereadInvestorInfo {Double : Type} (c : Conversions Double) (select : Select)
    (field : InvestorInfoField Double) : InvestorInfoField Double :=
  let getter : Getter .investor := .getInvestorInfo field.brokerID field.investorID
  (readFirst (fun _ ↦ InvestorInfoField.ofRow c) field (getter.resultSet c select)).getD field

/-! ### Rates of a model -/

section Models

variable {Double : Type} (c : Conversions Double) (select : Select)

/-- `GetMarginRateModelInfo`. -/
def getMarginRateModelInfo (modelid : ℤ) : Option (MarginRateModelInfoField Double) :=
  (nonEmpty (executeSQL select (selectText marginRateModelTable
    [equals "MarginRateModelID" (c.ofInt modelid)]))).map fun rows ↦
      MarginRateModelInfoField.ofRow c (rows.headD [])

/-- `GetCommissionRateModelInfo`. -/
def getCommissionRateModelInfo (modelid : ℤ) : Option (CommissionRateModelInfoField Double) :=
  (nonEmpty (executeSQL select (selectText commissionRateModelTable
    [equals "CommissionRateModelID" (c.ofInt modelid)]))).map fun rows ↦
      CommissionRateModelInfoField.ofRow c (rows.headD [])

variable [Mul Double] [One Double]

/-- The margin rates as a model has them: when the model is known and its factor is above one, the
rates are multiplied by it. -/
def MarginRateInfoField.ofModel (modelid : ℤ) (field : MarginRateInfoField Double) :
    MarginRateInfoField Double :=
  let field := { field with marginRateModelID := modelid }
  match getMarginRateModelInfo c select modelid with
  | none => field
  | some model => if c.greater model.baseOnBasics 1 then field.scale model.baseOnBasics else field

/-- Whatever model a record had before does not matter. -/
theorem MarginRateInfoField.ofModel_assign_values (modelid : ℤ)
    (before field : MarginRateInfoField Double) :
    (before.assign c (field.values c)).ofModel c select modelid =
      field.ofModel c select modelid := by
  rw [MarginRateInfoField.assign_values]
  rfl

variable [Add Double] [Zero Double]

/-- The commission rates as a model has them: when the model is known, all rates are multiplied by
its first factor if that is above one, and then its second amount is added to the rates by volume
if it is above zero. -/
def CommissionRateInfoField.ofModel (modelid : ℤ) (field : CommissionRateInfoField Double) :
    CommissionRateInfoField Double :=
  let field := { field with commissionRateModelID := modelid }
  match getCommissionRateModelInfo c select modelid with
  | none => field
  | some model =>
    let field :=
      if c.greater model.baseOnBasicsByMoney 1 then field.scale model.baseOnBasicsByMoney
      else field
    if c.greater model.baseOnBasicsByVolume 0 then field.raise model.baseOnBasicsByVolume
    else field

theorem CommissionRateInfoField.ofModel_assign_values (modelid : ℤ)
    (before field : CommissionRateInfoField Double) :
    (before.assign c (field.values c)).ofModel c select modelid =
      field.ofModel c select modelid := by
  rw [CommissionRateInfoField.assign_values]
  rfl

end Models

namespace Getter

variable {table : Table} {Double : Type} [Mul Double] [Add Double] [Zero Double] [One Double]
variable (c : Conversions Double) (select : Select)

/-- The assignments that a getter makes for a row of the result set `rows`. The getter of a server's
investors reads the last column from row 0 for every record. -/
def assign (rows : List Row) : Getter table → table.Record Double → Row → table.Record Double
  | getInvestorInfo _ _, _, row | getInvestorInfoByID _, _, row | getInvestorInfos, _, row =>
    InvestorInfoField.ofRow c row
  | getInvestorInfosOfServer _, _, row =>
    { InvestorInfoField.ofRow c row with
      tradeCounterID := c.toInt (Row.column (rows.headD []) 16) }
  | getProductInfo _, _, row | getProductInfos, _, row => ProductInfoField.ofRow c row
  | getInstrumentInfo _, _, row | getInstrumentInfos, _, row => InstrumentInfoField.ofRow c row
  | getMarginRateInfo modelid _, field, row | getMarginRateInfosOfModel modelid, field, row =>
    MarginRateInfoField.ofModel c select modelid (MarginRateInfoField.assign c field row)
  | getMarginRateInfos, field, row => MarginRateInfoField.assign c field row
  | getCommissionRateInfo modelid _, field, row
  | getCommissionRateInfosOfModel modelid, field, row =>
    CommissionRateInfoField.ofModel c select modelid (CommissionRateInfoField.assign c field row)
  | getCommissionRateInfos, field, row => CommissionRateInfoField.assign c field row
  | getOrder _ _ _, field, row | getAllOrderOfDay _, field, row
  | getAllOrderOfInstrument _ _, field, row | getAllOrder, field, row =>
    OrderField.assign c field row
  | getTradingAccount _ _, _, row => TradingAccountField.ofRow c row
  | getPositions _ _, _, row | getAllPositions, _, row | getPosition _ _ _ _, _, row
  | getPositionsOfInstrument _, _, row => InvestorPositionField.ofRow c row
  | getCloudOrder _ _, _, row | getAllCloudOrder, _, row | getInvalidCloudOrder, _, row =>
    CloudOrderField.ofRow c row
  | getUnHandleCashFlow, _, row | getCashFlow _ _, _, row | getAllCashFlow, _, row =>
    CashFlowField.ofRow c row
  | getTradeRiskTmpl _ _ _, _, row => TradeRiskTmplField.ofRow c row
  | getTradeCounter, _, row => TradeCounterField.ofRow c row
  | getLastTick _ _ _, _, row | getLastTicks _, _, row => DepthMarketDataField.ofRow c row

/-- The records that a getter fills, or none when it fails. `field` is the record it is handed, or
the local record of its loop. -/
def get (getter : Getter table) (field : table.Record Double) :
    Option (List (table.Record Double)) :=
  let rows := getter.resultSet c select
  let assign := getter.assign c select (rows.getD [])
  match getter.reading with
  | .first => (readFirst assign field rows).map ([·])
  | .last => (readLast assign field rows).map ([·])
  | .each acceptsNone =>
    (if acceptsNone then rows else nonEmpty rows).map (readRows assign field)

end Getter

/-- `GetSettlementSheet`: its result code, and the text when there is one. -/
def getSettlementSheet (select : Select) (brokerID investorID tradingDay : Bytes) :
    ℤ × Option Bytes :=
  match executeSQL select (selectText investorSettlementSheetTable
    [equals "BrokerID" brokerID, equals "InvestorID" investorID,
      equals "TradingDay" tradingDay]) with
  | none => (-1, none)
  | some [] => (0, none)
  | some (row :: _) => (1, some (row.column 0))

end TradeServers.DbLayer
