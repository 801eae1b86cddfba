import TradeServers.DbLayer.Getters

/-!
# The statements of every operation

Besides the records of `Records`, the trading database layer stores trades, exercise orders, details
of positions and some smaller records, and keeps a history of most of them. This module lists all
`Upd`, `Get` and `Del` operations of `CDBOperation` (`Upd`, `Get` and `Del`) with the statements
they build. An operation that calls another one is listed with the statements of its own.

`ExecQuery` passes a text on with its length. The texts of the `Get` operations go through
`c_str()`. The connection uses `gb2312`, in which no byte of a longer character is ASCII, so that
the lexer of the server can be read as one on bytes.
-/

set_option autoImplicit false
set_option relaxedAutoImplicit false

namespace TradeServers.DbLayer

open SqlLiteral

/-! ### The remaining records -/

section Records

variable {Double : Type} (c : Conversions Double)

/-- The statement of `UpdHisOrder`. The table of past orders has one column more. -/
def updHisOrder (order : OrderField Double) : Bytes :=
  replaceText hisOrderTable (order.values c ++ [ascii "0"])

/-- A trade. -/
structure TradeField (Double : Type) where
  (brokerID investorID instrumentID orderRef userID exchangeID tradeID : Bytes)
  direction : UInt8
  (orderSysID participantID clientID : Bytes)
  tradingRole : UInt8
  exchangeInstID : Bytes
  (offsetFlag hedgeFlag : UInt8)
  price : Double
  volume : ℤ
  (tradeDate tradeTime : Bytes)
  (tradeType priceSource : UInt8)
  (orderLocalID clearingPartID businessUnit : Bytes)
  sequenceNo : ℤ
  tradingDay : Bytes
  (settlementID brokerOrderSeq : ℤ)
  tradeSource : UInt8
  (closeProfit commission : Double)
deriving Inhabited

/-- The texts that `UpdTrade` pastes. -/
def TradeField.values (trade : TradeField Double) : Row :=
  [trade.brokerID, trade.investorID, trade.instrumentID, trade.orderRef, trade.userID,
    trade.exchangeID, trade.tradeID, [trade.direction], trade.orderSysID, trade.participantID,
    trade.clientID, [trade.tradingRole], trade.exchangeInstID, [trade.offsetFlag],
    [trade.hedgeFlag], c.ofDouble trade.price, c.ofInt trade.volume, trade.tradeDate,
    trade.tradeTime, [trade.tradeType], [trade.priceSource], trade.orderLocalID,
    trade.clearingPartID, trade.businessUnit, c.ofInt trade.sequenceNo, trade.tradingDay,
    c.ofInt trade.settlementID, c.ofInt trade.brokerOrderSeq, [trade.tradeSource],
    c.ofDouble trade.closeProfit, c.ofDouble trade.commission]

/-- The statement of `UpdTrade`. -/
def updTrade (trade : TradeField Double) : Bytes := replaceText tradeTable (trade.values c)

/-- The statement of `UpdHisTrade`. The table of past trades has one column more. -/
def updHisTrade (trade : TradeField Double) : Bytes :=
  replaceText hisTradeTable (trade.values c ++ [ascii "0"])

/-- The statement of `UpdSettlementCash`. -/
def updSettlementCash (field : TradingAccountField Double) : Bytes :=
  replaceText investorSettlementCashTable (field.values c)

/-- The statement of `UpdHisPosition`. -/
def updHisPosition (position : InvestorPositionField Double) : Bytes :=
  replaceText hisPositionTable (position.values c)

/-- The statement of `UpdHisCashFlow`. -/
def updHisCashFlow (field : CashFlowField Double) : Bytes :=
  replaceText hisCashFlowTable (field.values c)

/-- The confirmation of a settlement. -/
structure SettlementSheetConfirmInfoField where
  (brokerID investorID confirmDate confirmTime : Bytes)
deriving Inhabited

/-- The texts that `UpdSettlementConfirmInfo` pastes. -/
def SettlementSheetConfirmInfoField.values (field : SettlementSheetConfirmInfoField) : Row :=
  [field.brokerID, field.investorID, field.confirmDate, field.confirmTime]

/-- The statement of `UpdSettlementConfirmInfo`. -/
def updSettlementConfirmInfo (field : SettlementSheetConfirmInfoField) : Bytes :=
  replaceText settlementConfirmInfoTable field.values

/-- The state of a day's settlement. -/
structure DailySettlementFlagField where
  dailySettlementFlagID : ℤ
  (settlementDate settlementTime settlementFlag settlementBackupFlag backupTime userCode
    needSettlementDate comment : Bytes)
  isNightClose : ℤ
deriving Inhabited

/-- The texts that `UpdDailySettlementFlag` pastes. -/
def DailySettlementFlagField.values (field : DailySettlementFlagField) : Row :=
  [c.ofInt field.dailySettlementFlagID, field.settlementDate, field.settlementTime,
    field.settlementFlag, field.settlementBackupFlag, field.backupTime, field.userCode,
    field.needSettlementDate, field.comment, c.ofInt field.isNightClose]

/-- The statement of `UpdDailySettlementFlag`. -/
def updDailySettlementFlag (field : DailySettlementFlagField) : Bytes :=
  replaceText dsfTable (field.values c)

/-- The detail of a position. -/
structure InvestorPositionDetailField (Double : Type) where
  (brokerID investorID instrumentID : Bytes)
  (direction hedgeFlag : UInt8)
  (openDate tradeID : Bytes)
  openPrice : Double
  volume : ℤ
  tradeType : UInt8
  (combInstrumentID exchangeID : Bytes)
  (margin lastSettlementPrice : Double)
  tradingDay : Bytes
deriving Inhabited

/-- The texts that `UpdPositionDetail` pastes. -/
def InvestorPositionDetailField.values (positionDetail : InvestorPositionDetailField Double) :
    Row :=
  [positionDetail.brokerID, positionDetail.investorID, positionDetail.instrumentID,
    [positionDetail.direction], [positionDetail.hedgeFlag], positionDetail.openDate,
    positionDetail.tradeID, c.ofDouble positionDetail.openPrice, c.ofInt positionDetail.volume,
    [positionDetail.tradeType], positionDetail.combInstrumentID, positionDetail.exchangeID,
    c.ofDouble positionDetail.margin, c.ofDouble positionDetail.lastSettlementPrice,
    positionDetail.tradingDay]

/-- The statement of `UpdPositionDetail`. -/
def updPositionDetail (positionDetail : InvestorPositionDetailField Double) : Bytes :=
  replaceText positionDetailTable (positionDetail.values c)

/-- The automatic stop of an investor's losses in an instrument. -/
structure AutoStopLossField (Double : Type) where
  (brokerID investorID instrumentID : Bytes)
  (autoStopLossTickNum autoWinningTickNum floatingStopLossTickNum
    floatingStopWinningTickNum : ℤ)
  step : Double
deriving Inhabited

/-- The texts that `UpdAutoStopLoss` pastes. -/
def AutoStopLossField.values (field : AutoStopLossField Double) : Row :=
  [field.brokerID, field.investorID, field.instrumentID, c.ofInt field.autoStopLossTickNum,
    c.ofInt field.autoWinningTickNum, c.ofInt field.floatingStopLossTickNum,
    c.ofInt field.floatingStopWinningTickNum, c.ofDouble field.step]

/-- The statement of `UpdAutoStopLoss`. -/
def updAutoStopLoss (field : AutoStopLossField Double) : Bytes :=
  replaceText autoStopLossTable (field.values c)

/-- An order to exercise an option. -/
structure ExecOrderField where
  (brokerID investorID instrumentID execOrderRef userID : Bytes)
  (volume requestID : ℤ)
  (businessUnit offsetFlag hedgeFlag actionType posiDirection reservePositionFlag closeFlag
    execOrderLocalID exchangeID participantID clientID exchangeInstID traderID : Bytes)
  installID : ℤ
  orderSubmitStatus : Bytes
  notifySequence : ℤ
  tradingDay : Bytes
  settlementID : ℤ
  (execOrderSysID insertDate insertTime cancelTime execResult clearingPartID : Bytes)
  (sequenceNo frontID sessionID : ℤ)
  (userProductInfo statusMsg activeUserID : Bytes)
  brokerExecOrderSeq : ℤ
  (branchID investUnitID accountID currencyID ipAddress macAddress : Bytes)
deriving Inhabited

/-- The texts that `UpdExecOrder` pastes. -/
def ExecOrderField.values (execOrder : ExecOrderField) : Row :=
  [execOrder.brokerID, execOrder.investorID, execOrder.instrumentID, execOrder.execOrderRef,
    execOrder.userID, c.ofInt execOrder.volume, c.ofInt execOrder.requestID,
    execOrder.businessUnit, execOrder.offsetFlag, execOrder.hedgeFlag, execOrder.actionType,
    execOrder.posiDirection, execOrder.reservePositionFlag, execOrder.closeFlag,
    execOrder.execOrderLocalID, execOrder.exchangeID, execOrder.participantID,
    execOrder.clientID, execOrder.exchangeInstID, execOrder.traderID, c.ofInt execOrder.installID,
    execOrder.orderSubmitStatus, c.ofInt execOrder.notifySequence, execOrder.tradingDay,
    c.ofInt execOrder.settlementID, execOrder.execOrderSysID, execOrder.insertDate,
    execOrder.insertTime, execOrder.cancelTime, execOrder.execResult, execOrder.clearingPartID,
    c.ofInt execOrder.sequenceNo, c.ofInt execOrder.frontID, c.ofInt execOrder.sessionID,
    execOrder.userProductInfo, execOrder.statusMsg, execOrder.activeUserID,
    c.ofInt execOrder.brokerExecOrderSeq, execOrder.branchID, execOrder.investUnitID,
    execOrder.accountID, execOrder.currencyID, execOrder.ipAddress, execOrder.macAddress]

/-- The statement of `UpdExecOrder`. -/
def updExecOrder (execOrder : ExecOrderField) : Bytes :=
  replaceText execOrderTable (execOrder.values c)

/-- The statement of `UpdHisExecOrder`. -/
def updHisExecOrder (execOrder : ExecOrderField) : Bytes :=
  replaceText hisExecOrderTable (execOrder.values c)

end Records

/-! ### Statements without a condition -/

/-- The largest id of one of the tables with orders that wait for a price. -/
def maxCloudOrderID (table : TableName) : Query :=
  .around (ascii "SELECT MAX(CloudOrderID) FROM `") table (ascii "`") [] (by decide +kernel)
    fixed_backtick

/-- The largest id of a trade counter. -/
def maxTradeCounterID : Query :=
  .around (ascii "SELECT MAX(TradeCounterID) FROM `") .tradeCounter (ascii "`") []
    (by decide +kernel) fixed_backtick

/-- The statement of `GetMaxOrderSysID`. -/
def maxOrderSysID : Query :=
  .around (ascii "SELECT MAX(ordersysid) FROM `") .order (ascii "`") [] (by decide +kernel)
    fixed_backtick

/-- The statement of `GetMaxTradeID`. -/
def maxTradeID : Query :=
  .around (ascii "SELECT MAX(tradeid) FROM `") .trade (ascii "`") [] (by decide +kernel)
    fixed_backtick

/-- The statements of `GetInvestorsOfOrder` and `GetInvestorsOfTrade`. -/
def investorsOf (table : TableName) : Query :=
  .around (ascii "SELECT DISTINCT investorid FROM `") table (ascii "`") [] (by decide +kernel)
    fixed_backtick

/-- The statement of `GetLastDailySettlementFlag`. -/
def lastDailySettlementFlag : Query :=
  .around (ascii "SELECT * FROM `") .dsf (ascii "` order by id desc limit 1") [] fixed_select
    (by decide +kernel)

/-- The statement that `UpdTradeRiskTmpl_Prepare` prepares; its values are bound to it
afterwards. -/
def tradeRiskTmplPrepare : Query :=
  .around (ascii "INSERT INTO `") .tradeRiskTmpl (ascii "` VALUES (?, ?, ?, ?, ?)") []
    (by decide) (by decide +kernel)

/-! ### Writing -/

/-- The operations that write a record. -/
inductive Upd (Double : Type)
  | investorInfo (field : InvestorInfoField Double)
  | productInfo (field : ProductInfoField Double)
  | instrumentInfo (inst : InstrumentInfoField Double)
  | marginRateInfo (field : MarginRateInfoField Double)
  | commissionRateInfo (field : CommissionRateInfoField Double)
  | order (order : OrderField Double)
  | hisOrder (order : OrderField Double)
  | trade (trade : TradeField Double)
  | hisTrade (trade : TradeField Double)
  | tradingAccount (field : TradingAccountField Double)
  | position (position : InvestorPositionField Double)
  | cloudOrder (field : CloudOrderField Double)
  | hisCloudOrder (field : CloudOrderField Double)
  | cashFlow (field : CashFlowField Double)
  | hisCashFlow (field : CashFlowField Double)
  | settlementCash (field : TradingAccountField Double)
  | hisPosition (position : InvestorPositionField Double)
  | settlementSheet (field : SettlementSheetField)
  | settlementConfirmInfo (field : SettlementSheetConfirmInfoField)
  | lastTick (tick : DepthMarketDataField Double)
  | dailySettlementFlag (field : DailySettlementFlagField)
  | positionDetail (positionDetail : InvestorPositionDetailField Double)
  | autoStopLoss (field : AutoStopLossField Double)
  | tradeRiskTmpl (field : TradeRiskTmplField)
  | tradeCounter (field : TradeCounterField)
  | execOrder (execOrder : ExecOrderField)
  | hisExecOrder (execOrder : ExecOrderField)

/-- The table that a record is written to, and the values that are pasted. -/
structure Write where
  table : TableName
  values : Row
  nonempty : values ≠ []

namespace Upd

variable {Double : Type} (c : Conversions Double)

/-- The text of an operation's `REPLACE`. -/
def text : Upd Double → Bytes
  | investorInfo field => updInvestorInfo c field
  | productInfo field => updProductInfo c field
  | instrumentInfo inst => updInstrumentInfo c inst
  | marginRateInfo field => updMarginRateInfo c field
  | commissionRateInfo field => updCommissionRateInfo c field
  | order field => updOrder c field
  | hisOrder field => updHisOrder c field
  | trade field => updTrade c field
  | hisTrade field => updHisTrade c field
  | tradingAccount field => updTradingAccount c field
  | position field => updPosition c field
  | cloudOrder field => updCloudOrder c field
  | hisCloudOrder field => updHisCloudOrder c field
  | cashFlow field => updCashFlow c field
  | hisCashFlow field => updHisCashFlow c field
  | settlementCash field => updSettlementCash c field
  | hisPosition field => updHisPosition c field
  | settlementSheet field => updSettlementSheet c field
  | settlementConfirmInfo field => updSettlementConfirmInfo field
  | lastTick tick => updLastTick c tick
  | dailySettlementFlag field => updDailySettlementFlag c field
  | positionDetail field => updPositionDetail c field
  | autoStopLoss field => updAutoStopLoss c field
  | tradeRiskTmpl field => updTradeRiskTmpl c field
  | tradeCounter field => updTradeCounter c field
  | execOrder field => updExecOrder c field
  | hisExecOrder field => updHisExecOrder c field

/-- The table and the values of this `REPLACE`. -/
def write : Upd Double → Write
  | investorInfo field => ⟨.investor, field.values c, List.cons_ne_nil _ _⟩
  | productInfo field => ⟨.product, field.values c, List.cons_ne_nil _ _⟩
  | instrumentInfo inst => ⟨.instrument, inst.values c, List.cons_ne_nil _ _⟩
  | marginRateInfo field => ⟨.marginRate, field.values c, List.cons_ne_nil _ _⟩
  | commissionRateInfo field => ⟨.commissionRate, field.values c, List.cons_ne_nil _ _⟩
  | order field => ⟨.order, field.values c, List.cons_ne_nil _ _⟩
  | hisOrder field => ⟨.hisOrder, field.values c ++ [ascii "0"], List.cons_ne_nil _ _⟩
  | trade field => ⟨.trade, field.values c, List.cons_ne_nil _ _⟩
  | hisTrade field => ⟨.hisTrade, field.values c ++ [ascii "0"], List.cons_ne_nil _ _⟩
  | tradingAccount field => ⟨.tradingAccount, field.values c, List.cons_ne_nil _ _⟩
  | position field => ⟨.position, field.values c, List.cons_ne_nil _ _⟩
  | cloudOrder field => ⟨.cloudOrder, field.values c, List.cons_ne_nil _ _⟩
  | hisCloudOrder field => ⟨.hisCloudOrder, field.values c, List.cons_ne_nil _ _⟩
  | cashFlow field => ⟨.cashFlow, field.values c, List.cons_ne_nil _ _⟩
  | hisCashFlow field => ⟨.hisCashFlow, field.values c, List.cons_ne_nil _ _⟩
  | settlementCash field => ⟨.investorSettlementCash, field.values c, List.cons_ne_nil _ _⟩
  | hisPosition field => ⟨.hisPosition, field.values c, List.cons_ne_nil _ _⟩
  | settlementSheet field => ⟨.investorSettlementSheet, field.values c, List.cons_ne_nil _ _⟩
  | settlementConfirmInfo field => ⟨.settlementConfirmInfo, field.values, List.cons_ne_nil _ _⟩
  | lastTick tick => ⟨.lastTick, tick.values c, List.cons_ne_nil _ _⟩
  | dailySettlementFlag field => ⟨.dsf, field.values c, List.cons_ne_nil _ _⟩
  | positionDetail field => ⟨.positionDetail, field.values c, List.cons_ne_nil _ _⟩
  | autoStopLoss field => ⟨.autoStopLoss, field.values c, List.cons_ne_nil _ _⟩
  | tradeRiskTmpl field => ⟨.tradeRiskTmpl, field.values c, List.cons_ne_nil _ _⟩
  | tradeCounter field => ⟨.tradeCounter, field.values c, List.cons_ne_nil _ _⟩
  | execOrder field => ⟨.execOrder, field.values c, List.cons_ne_nil _ _⟩
  | hisExecOrder field => ⟨.hisExecOrder, field.values c, List.cons_ne_nil _ _⟩

theorem text_eq (upd : Upd Double) :
    upd.text c = replaceText (upd.write c).table.text (upd.write c).values := by
  cases upd <;> rfl

/-- The values of the record that an operation is called with. `UpdTradeRiskTmpl` leaves the text of
the template out. -/
def record : Upd Double → Row
  | tradeRiskTmpl field => [field.brokerID, field.investorID, c.ofInt field.clientType, field.time,
      field.tradeRiskTmplTxt]
  | upd => (upd.write c).values

/-- The statements that follow the `REPLACE`: the operations with generated ids ask for the id. -/
def followUps : Upd Double → List Query
  | cloudOrder field => if field.cloudOrderID = 0 then [maxCloudOrderID .cloudOrder] else []
  | hisCloudOrder field => if field.cloudOrderID = 0 then [maxCloudOrderID .hisCloudOrder] else []
  | tradeCounter field => if field.tradeCounterID = 0 then [maxTradeCounterID] else []
  | _ => []

end Upd

/-! ### Deleting -/

/-- The operations that delete rows. -/
inductive Del (Double : Type)
  | investorInfo (brokerID investorID : Bytes)
  | instrumentInfo (instrumentID : Bytes)
  | investorOrder (brokerID investorID : Bytes)
  | investorHisOrder (brokerID investorID : Bytes)
  | investorTrade (brokerID investorID : Bytes)
  | investorHisTrade (brokerID investorID : Bytes)
  | investorTradingAccount (brokerID investorID : Bytes)
  | position (position : InvestorPositionField Double)
  | zeroPositions
  | investorPosition (brokerID investorID : Bytes)
  | cloudOrder (instrumentID status : Bytes)
  | investorCloudOrder (brokerID investorID : Bytes)
  | allInvalidCloudOrder
  | cashFlow (field : CashFlowField Double)
  | investorCashFlow (brokerID investorID : Bytes)
  | investorHisCashFlow (brokerID investorID : Bytes)
  | investorSettlementCash (brokerID investorID : Bytes)
  | investorHisPosition (brokerID investorID : Bytes)
  | investorSettlementSheet (brokerID investorID : Bytes)
  | investorSettlementConfirmInfo (brokerID investorID : Bytes)
  | positionDetail (positionDetail : InvestorPositionDetailField Double)
  | zeroPositionDetails
  | investorPositionDetails (brokerID investorID : Bytes)
  | autoStopLoss (brokerID investorID instrumentID : Bytes)
  | investorTradeRiskTmpl (brokerID investorID : Bytes)

/-- The condition of `DelAutoStopLoss` and `GetAutoStopLoss`: an empty instrument stands for all
instruments of the account, and is not compared with. -/
def ofInvestorAndInstrument (brokerID investorID instrumentID : Bytes) : List Comparison :=
  ofInvestor brokerID investorID ++
    if instrumentID ≠ [] then [.is .instrumentID instrumentID] else []

namespace Del

variable {Double : Type} (c : Conversions Double)

/-- The statement of an operation that deletes rows. -/
def query : Del Double → Query
  | investorInfo brokerID investorID => .delete .investor (ofInvestor brokerID investorID)
  | instrumentInfo instrumentID => .delete .instrument [.is .instrumentID instrumentID]
  | investorOrder brokerID investorID => .delete .order (ofInvestor brokerID investorID)
  | investorHisOrder brokerID investorID => .delete .hisOrder (ofInvestor brokerID investorID)
  | investorTrade brokerID investorID => .delete .trade (ofInvestor brokerID investorID)
  | investorHisTrade brokerID investorID => .delete .hisTrade (ofInvestor brokerID investorID)
  | investorTradingAccount brokerID investorID =>
    .delete .tradingAccount (ofInvestor brokerID investorID)
  | position field => .delete .position
      [.is .tradingDay field.tradingDay, .is .brokerID field.brokerID,
        .is .investorID field.investorID, .is .instrumentID field.instrumentID,
        .is .posiDirection [field.posiDirection], .is .hedgeFlag [field.hedgeFlag]]
  | zeroPositions => .delete .position [.is .position (ascii "0")]
  | investorPosition brokerID investorID => .delete .position (ofInvestor brokerID investorID)
  | cloudOrder instrumentID status => .delete .cloudOrder
      [.is .instrumentID instrumentID, .is .status status]
  | investorCloudOrder brokerID investorID =>
    .delete .cloudOrder (ofInvestor brokerID investorID)
  | allInvalidCloudOrder => .delete .cloudOrder [.statusNonzero]
  | cashFlow field => .delete .cashFlow [.is .cashFlowID (c.ofInt field.cashFlowID)]
  | investorCashFlow brokerID investorID => .delete .cashFlow (ofInvestor brokerID investorID)
  | investorHisCashFlow brokerID investorID =>
    .delete .hisCashFlow (ofInvestor brokerID investorID)
  | investorSettlementCash brokerID investorID =>
    .delete .investorSettlementCash (ofInvestor brokerID investorID)
  | investorHisPosition brokerID investorID =>
    .delete .hisPosition (ofInvestor brokerID investorID)
  | investorSettlementSheet brokerID investorID =>
    .delete .investorSettlementSheet (ofInvestor brokerID investorID)
  | investorSettlementConfirmInfo brokerID investorID =>
    .delete .settlementConfirmInfo (ofInvestor brokerID investorID)
  | positionDetail field => .delete .positionDetail
      [.is .brokerID field.brokerID, .is .investorID field.investorID,
        .is .instrumentID field.instrumentID, .is .direction [field.direction],
        .is .hedgeFlag [field.hedgeFlag], .is .openDate field.openDate,
        .is .tradeID field.tradeID]
  | zeroPositionDetails => .delete .positionDetail [.is .volume (ascii "0")]
  | investorPositionDetails brokerID investorID =>
    .delete .positionDetail (ofInvestor brokerID investorID)
  | autoStopLoss brokerID investorID instrumentID =>
    .delete .autoStopLoss (ofInvestorAndInstrument brokerID investorID instrumentID)
  | investorTradeRiskTmpl brokerID investorID =>
    .delete .tradeRiskTmpl (ofInvestor brokerID investorID)

end Del

/-! ### Reading -/

/-- The operations that read rows. -/
inductive Get
  | record {table : Table} (getter : Getter table)
  | exchangeInfo (exchangeID : Bytes)
  | exchangeInfos
  | brokerInfo (brokerID : Bytes)
  | brokerInfos
  | marginRateModelInfo (modelid : ℤ)
  | allMarginRateModelInfo
  | commissionRateModelInfo (modelid : ℤ)
  | allCommissionRateModelInfo
  | maxOrderSysID
  | investorsOfOrder
  | hisOrder (brokerID investorID tradingDay : Bytes)
  | allHisOrder (tradingDay : Bytes)
  | trade (brokerID investorID : Bytes)
  | tradeOfDay (brokerID investorID tradingDay : Bytes)
  | allTradeOfDay (tradingDay : Bytes)
  | allTrade
  | maxTradeID
  | investorsOfTrade
  | hisTrade (brokerID investorID tradingDay : Bytes)
  | hisTradeBetween (brokerID investorID beginDate endDate : Bytes)
  | allHisTrade (tradingDay : Bytes)
  | hisCloudOrder (brokerID investorID : Bytes)
  | unHandleHisCashFlow
  | hisCashFlow (brokerID investorID : Bytes)
  | settlementCash (brokerID investorID tradingDay : Bytes)
  | hisPositions (brokerID investorID : Bytes)
  | allHisPositions
  | settlementSheet (brokerID investorID tradingDay : Bytes)
  | settlementConfirmInfo (brokerID investorID : Bytes)
  | lastDailySettlementFlag
  | positionDetails (brokerID investorID : Bytes)
  | positionDetailsOf (brokerID investorID instrumentID : Bytes)
  | positionDetailsOfDirection (brokerID investorID instrumentID direction : Bytes)
  | positionDetailsOfInstrument (instrumentID : Bytes)
  | serverInvestorRange (serverID : Bytes)
  | autoStopLoss (brokerID investorID instrumentID : Bytes)
  | execOrder (brokerID investorID tradingDay : Bytes)
  | allExecOrderOfDay (tradingDay : Bytes)
  | allExecOrder
  | hisExecOrder (brokerID investorID tradingDay : Bytes)
  | allHisExecOrder (tradingDay : Bytes)

/-- The statement that `GetHisTrade` is meant to run for a range of days, either end of which may be
open. -/
def hisTradeBetween (brokerID investorID beginDate endDate : Bytes) : Query :=
  .select .hisTrade (ofInvestor brokerID investorID ++
    if beginDate = [] ∧ endDate ≠ [] then [⟨ascii "TradingDay <= ", endDate, by decide⟩]
    else if beginDate ≠ [] ∧ endDate = [] then [⟨ascii "TradingDay >= ", beginDate, by decide⟩]
    else if beginDate ≠ [] ∧ endDate ≠ [] then
      [⟨ascii "TradingDay BETWEEN ", beginDate, by decide⟩, ⟨[], endDate, fixed_nil⟩]
    else [])

/-- The text that `GetHisTrade` builds for a range of days. The quote in front of the account and
those around the days are missing. -/
def hisTradeBetweenText (brokerID investorID beginDate endDate : Bytes) : Bytes :=
  ascii "SELECT * FROM `" ++ hisTradeTable ++ ascii "` WHERE BrokerID = '" ++ brokerID ++
    ascii "' AND InvestorID = " ++ investorID ++
    (if beginDate = [] ∧ endDate ≠ [] then ascii "' AND TradingDay <= " ++ endDate
      else if beginDate ≠ [] ∧ endDate = [] then ascii "' AND TradingDay >= " ++ beginDate
      else if beginDate ≠ [] ∧ endDate ≠ [] then
        ascii "' AND TradingDay BETWEEN " ++ beginDate ++ ascii " AND " ++ endDate
      else []) ++ ascii ";"

namespace Get

variable {Double : Type} (c : Conversions Double) (select : Select)

/-- The statements that an operation is meant to run. -/
def queries : Get → List Query
  | record getter => getter.queries c select
  | exchangeInfo exchangeID => [.select .exchange [.is .exchangeID exchangeID]]
  | exchangeInfos => [.select .exchange []]
  | brokerInfo brokerID => [.select .broker [.is .brokerID brokerID]]
  | brokerInfos => [.select .broker []]
  | marginRateModelInfo modelid =>
    [.select .marginRateModel [.is .marginRateModelID (c.ofInt modelid)]]
  | allMarginRateModelInfo => [.select .marginRateModel []]
  | commissionRateModelInfo modelid =>
    [.select .commissionRateModel [.is .commissionRateModelID (c.ofInt modelid)]]
  | allCommissionRateModelInfo => [.select .commissionRateModel []]
  | maxOrderSysID => [DbLayer.maxOrderSysID]
  | investorsOfOrder => [investorsOf .order]
  | hisOrder brokerID investorID tradingDay => [.select .hisOrder
      (ofInvestor brokerID investorID ++ [.is .tradingDay tradingDay])]
  | allHisOrder tradingDay => [.select .hisOrder [.is .tradingDay tradingDay]]
  | trade brokerID investorID => [.select .trade (ofInvestor brokerID investorID)]
  | tradeOfDay brokerID investorID tradingDay => [.select .trade
      (ofInvestor brokerID investorID ++ [.is .tradingDay tradingDay])]
  | allTradeOfDay tradingDay => [.select .trade [.is .tradingDay tradingDay]]
  | allTrade => [.select .trade []]
  | maxTradeID => [DbLayer.maxTradeID]
  | investorsOfTrade => [investorsOf .trade]
  | hisTrade brokerID investorID tradingDay => [.select .hisTrade
      (ofInvestor brokerID investorID ++ [.is .tradingDay tradingDay])]
  | hisTradeBetween brokerID investorID beginDate endDate =>
    [DbLayer.hisTradeBetween brokerID investorID beginDate endDate]
  | allHisTrade tradingDay => [.select .hisTrade [.is .tradingDay tradingDay]]
  | hisCloudOrder brokerID investorID =>
    [.select .hisCloudOrder (ofInvestor brokerID investorID)]
  | unHandleHisCashFlow => [.select .hisCashFlow [.is .isHandled (ascii "0")]]
  | hisCashFlow brokerID investorID => [.select .hisCashFlow (ofInvestor brokerID investorID)]
  | settlementCash brokerID investorID tradingDay => [.select .investorSettlementCash
      (ofInvestor brokerID investorID ++ [.is .tradingDay tradingDay])]
  | hisPositions brokerID investorID => [.select .hisPosition (ofInvestor brokerID investorID)]
  | allHisPositions => [.select .hisPosition []]
  | settlementSheet brokerID investorID tradingDay => [.select .investorSettlementSheet
      (ofInvestor brokerID investorID ++ [.is .tradingDay tradingDay])]
  | settlementConfirmInfo brokerID investorID =>
    [.select .settlementConfirmInfo (ofInvestor brokerID investorID)]
  | lastDailySettlementFlag => [DbLayer.lastDailySettlementFlag]
  | positionDetails brokerID investorID =>
    [.select .positionDetail (ofInvestor brokerID investorID)]
  | positionDetailsOf brokerID investorID instrumentID => [.select .positionDetail
      (ofInvestor brokerID investorID ++ [.is .instrumentID instrumentID])]
  | positionDetailsOfDirection brokerID investorID instrumentID direction =>
    [.select .positionDetail (ofInvestor brokerID investorID ++
      [.is .instrumentID instrumentID, .is .direction direction])]
  | positionDetailsOfInstrument instrumentID =>
    [.select .positionDetail [.is .instrumentID instrumentID]]
  | serverInvestorRange serverID => [.select .investorServerPortConf [.is .id serverID]]
  | autoStopLoss brokerID investorID instrumentID =>
    [.select .autoStopLoss (ofInvestorAndInstrument brokerID investorID instrumentID)]
  | execOrder brokerID investorID tradingDay => [.select .execOrder
      (ofInvestor brokerID investorID ++ [.is .tradingDay tradingDay])]
  | allExecOrderOfDay tradingDay => [.select .execOrder [.is .tradingDay tradingDay]]
  | allExecOrder => [.select .execOrder []]
  | hisExecOrder brokerID investorID tradingDay => [.select .hisExecOrder
      (ofInvestor brokerID investorID ++ [.is .tradingDay tradingDay])]
  | allHisExecOrder tradingDay => [.select .hisExecOrder [.is .tradingDay tradingDay]]

/-- The text that an operation builds for one of its statements. -/
def text : Get → Query → Bytes
  | hisTradeBetween brokerID investorID beginDate endDate, _ =>
    hisTradeBetweenText brokerID investorID beginDate endDate
  | _, query => query.text

end Get

end TradeServers.DbLayer
