import TradeServers.DbLayer.Statement

/-!
# The records of the trading database layer

The records that `CDBOperation` stores, with the columns that the `Upd` operation of their table
pastes and the assignments by which the `Get` operations fill a record from a row. `Double` is the
type of `double` values. The theorems say what a getter makes of the row that was written.
-/

set_option autoImplicit false
set_option relaxedAutoImplicit false

namespace TradeServers.DbLayer

variable {Double : Type} (c : Conversions Double)

/-- The text of an id that the server generates when the record has none. -/
def generatedID (id : ℤ) : Bytes := if id ≤ 0 then ascii "0" else c.ofInt id

theorem generatedID_of_pos {id : ℤ} (hid : 0 < id) : generatedID c id = c.ofInt id :=
  if_neg (Int.not_le.mpr hid)

/-- `array[0] = byte`. -/
def setFirst (array : Bytes) (byte : UInt8) : Bytes := byte :: array.drop 1

/-! ### Investors -/

/-- An investor. -/
structure InvestorInfoField (Double : Type) where
  id : ℤ
  (investorID investorName brokerID brokerName password type openDate currencyCode
    status : Bytes)
  marginRateModelID : ℤ
  marginRateModelComment : Bytes
  commissionRateModelID : ℤ
  commissionRateModelComment : Bytes
  initial : Double
  comment : Bytes
  tradeCounterID : ℤ
deriving Inhabited

/-- The texts that `UpdInvestorInfo` pastes. -/
def InvestorInfoField.values (field : InvestorInfoField Double) : Row :=
  [c.ofInt field.id, field.investorID, field.investorName, field.brokerID, field.brokerName,
    field.password, field.type, field.openDate, field.currencyCode, field.status,
    c.ofInt field.marginRateModelID, field.marginRateModelComment,
    c.ofInt field.commissionRateModelID, field.commissionRateModelComment,
    c.ofDouble field.initial, field.comment, c.ofInt field.tradeCounterID]

/-- The statement of `UpdInvestorInfo`. -/
def updInvestorInfo (field : InvestorInfoField Double) : Bytes :=
  replaceText investorTable (field.values c)

/-- The assignments of the getters. -/
def InvestorInfoField.ofRow (row : Row) : InvestorInfoField Double where
  id := c.toInt (row.column 0)
  investorID := row.column 1
  investorName := row.column 2
  brokerID := row.column 3
  brokerName := row.column 4
  password := row.column 5
  type := row.column 6
  openDate := row.column 7
  currencyCode := row.column 8
  status := row.column 9
  marginRateModelID := c.toInt (row.column 10)
  marginRateModelComment := row.column 11
  commissionRateModelID := c.toInt (row.column 12)
  commissionRateModelComment := row.column 13
  initial := c.toDouble (row.column 14)
  comment := row.column 15
  tradeCounterID := c.toInt (row.column 16)

@[simp]
theorem InvestorInfoField.ofRow_values (field : InvestorInfoField Double) :
    InvestorInfoField.ofRow c (field.values c) = field := by
  simp [InvestorInfoField.ofRow, InvestorInfoField.values, Row.column]

/-! ### Products -/

/-- A product. -/
structure ProductInfoField (Double : Type) where
  (productID productName : Bytes)
  (volumeMultiple priceTick : Double)
  (exchangeID exchangeName type : Bytes)
deriving Inhabited

/-- The texts that `UpdProductInfo` pastes. -/
def ProductInfoField.values (field : ProductInfoField Double) : Row :=
  [field.productID, field.productName, c.ofDouble field.volumeMultiple,
    c.ofDouble field.priceTick, field.exchangeID, field.exchangeName, field.type]

/-- The statement of `UpdProductInfo`. -/
def updProductInfo (field : ProductInfoField Double) : Bytes :=
  replaceText productTable (field.values c)

/-- The assignments of the getters. -/
def ProductInfoField.ofRow (row : Row) : ProductInfoField Double where
  productID := row.column 0
  productName := row.column 1
  volumeMultiple := c.toDouble (row.column 2)
  priceTick := c.toDouble (row.column 3)
  exchangeID := row.column 4
  exchangeName := row.column 5
  type := row.column 6

@[simp]
theorem ProductInfoField.ofRow_values (field : ProductInfoField Double) :
    ProductInfoField.ofRow c (field.values c) = field := by
  simp [ProductInfoField.ofRow, ProductInfoField.values, Row.column]

/-! ### Instruments -/

/-- An instrument. -/
structure InstrumentInfoField (Double : Type) where
  (instrumentID instrumentName productID exchangeID exchangeInstID productClass : Bytes)
  (deliveryYear deliveryMonth maxMarketOrderVolume minMarketOrderVolume maxLimitOrderVolume
    minLimitOrderVolume : ℤ)
  (volumeMultiple priceTick : Double)
  (createDate openDate expireDate startDelivDate endDelivDate instLifePhase : Bytes)
  isTrading : ℤ
  (positionType positionDateType : Bytes)
  (longMarginRatio shortMarginRatio : Double)
  isArbitrage : ℤ
  underlyingInstrID : Bytes
  strikePrice : Double
  optionsType : Bytes
  underlyingMultiple : Double
  combinationType : Bytes
deriving Inhabited

/-- The texts that `UpdInstrumentInfo` pastes. -/
def InstrumentInfoField.values (field : InstrumentInfoField Double) : Row :=
  [field.instrumentID, field.instrumentName, field.productID, field.exchangeID,
    field.exchangeInstID, field.productClass, c.ofInt field.deliveryYear,
    c.ofInt field.deliveryMonth, c.ofInt field.maxMarketOrderVolume,
    c.ofInt field.minMarketOrderVolume, c.ofInt field.maxLimitOrderVolume,
    c.ofInt field.minLimitOrderVolume, c.ofDouble field.volumeMultiple,
    c.ofDouble field.priceTick, field.createDate, field.openDate, field.expireDate,
    field.startDelivDate, field.endDelivDate, field.instLifePhase, c.ofInt field.isTrading,
    field.positionType, field.positionDateType, c.ofDouble field.longMarginRatio,
    c.ofDouble field.shortMarginRatio, c.ofInt field.isArbitrage, field.underlyingInstrID,
    c.ofDouble field.strikePrice, field.optionsType, c.ofDouble field.underlyingMultiple,
    field.combinationType]

/-- The statement of `UpdInstrumentInfo`. -/
def updInstrumentInfo (field : InstrumentInfoField Double) : Bytes :=
  replaceText instrumentTable (field.values c)

/-- The assignments of the getters. -/
def InstrumentInfoField.ofRow (row : Row) : InstrumentInfoField Double where
  instrumentID := row.column 0
  instrumentName := row.column 1
  productID := row.column 2
  exchangeID := row.column 3
  exchangeInstID := row.column 4
  productClass := row.column 5
  deliveryYear := c.toInt (row.column 6)
  deliveryMonth := c.toInt (row.column 7)
  maxMarketOrderVolume := c.toInt (row.column 8)
  minMarketOrderVolume := c.toInt (row.column 9)
  maxLimitOrderVolume := c.toInt (row.column 10)
  minLimitOrderVolume := c.toInt (row.column 11)
  volumeMultiple := c.toDouble (row.column 12)
  priceTick := c.toDouble (row.column 13)
  createDate := row.column 14
  openDate := row.column 15
  expireDate := row.column 16
  startDelivDate := row.column 17
  endDelivDate := row.column 18
  instLifePhase := row.column 19
  isTrading := c.toInt (row.column 20)
  positionType := row.column 21
  positionDateType := row.column 22
  longMarginRatio := c.toDouble (row.column 23)
  shortMarginRatio := c.toDouble (row.column 24)
  isArbitrage := c.toInt (row.column 25)
  underlyingInstrID := row.column 26
  strikePrice := c.toDouble (row.column 27)
  optionsType := row.column 28
  underlyingMultiple := c.toDouble (row.column 29)
  combinationType := row.column 30

@[simp]
theorem InstrumentInfoField.ofRow_values (field : InstrumentInfoField Double) :
    InstrumentInfoField.ofRow c (field.values c) = field := by
  simp [InstrumentInfoField.ofRow, InstrumentInfoField.values, Row.column]

/-! ### Margin rates -/

/-- The margin rates of an instrument. The model is not a column of the table. -/
structure MarginRateInfoField (Double : Type) where
  marginRateModelID : ℤ
  (instrumentID investorRange hedgeFlag : Bytes)
  (longMarginRatioByMoney longMarginRatioByVolume shortMarginRatioByMoney
    shortMarginRatioByVolume : Double)
  isRelative : ℤ
deriving Inhabited

/-- The texts that `UpdMarginRateInfo` pastes. -/
def MarginRateInfoField.values (field : MarginRateInfoField Double) : Row :=
  [field.instrumentID, field.investorRange, field.hedgeFlag,
    c.ofDouble field.longMarginRatioByMoney, c.ofDouble field.longMarginRatioByVolume,
    c.ofDouble field.shortMarginRatioByMoney, c.ofDouble field.shortMarginRatioByVolume,
    c.ofInt field.isRelative]

/-- The statement of `UpdMarginRateInfo`. -/
def updMarginRateInfo (field : MarginRateInfoField Double) : Bytes :=
  replaceText marginRateTable (field.values c)

/-- The assignments of the getters. -/
def MarginRateInfoField.assign (field : MarginRateInfoField Double) (row : Row) :
    MarginRateInfoField Double :=
  { field with
    instrumentID := row.column 0
    investorRange := row.column 1
    hedgeFlag := row.column 2
    longMarginRatioByMoney := c.toDouble (row.column 3)
    longMarginRatioByVolume := c.toDouble (row.column 4)
    shortMarginRatioByMoney := c.toDouble (row.column 5)
    shortMarginRatioByVolume := c.toDouble (row.column 6)
    isRelative := c.toInt (row.column 7) }

/-- Everything but the model is read back. -/
theorem MarginRateInfoField.assign_values (before field : MarginRateInfoField Double) :
    before.assign c (field.values c) =
      { field with marginRateModelID := before.marginRateModelID } := by
  simp [MarginRateInfoField.assign, MarginRateInfoField.values, Row.column]

/-- The four rates multiplied by a factor. -/
def MarginRateInfoField.scale [Mul Double] (field : MarginRateInfoField Double) (factor : Double) :
    MarginRateInfoField Double :=
  { field with
    longMarginRatioByMoney := field.longMarginRatioByMoney * factor
    longMarginRatioByVolume := field.longMarginRatioByVolume * factor
    shortMarginRatioByMoney := field.shortMarginRatioByMoney * factor
    shortMarginRatioByVolume := field.shortMarginRatioByVolume * factor }

/-- A model of margin rates. -/
structure MarginRateModelInfoField (Double : Type) where
  marginRateModelID : ℤ
  (marginRateModelName creator createDate comment : Bytes)
  isBasicsModel : ℤ
  baseOnBasics : Double
deriving Inhabited

/-- The assignments of `GetMarginRateModelInfo`. -/
def MarginRateModelInfoField.ofRow (row : Row) : MarginRateModelInfoField Double where
  marginRateModelID := c.toInt (row.column 0)
  marginRateModelName := row.column 1
  creator := row.column 2
  createDate := row.column 3
  comment := row.column 4
  isBasicsModel := c.toInt (row.column 5)
  baseOnBasics := c.toDouble (row.column 6)

/-! ### Commission rates -/

/-- The commission rates of an instrument. The model is not a column of the table. -/
structure CommissionRateInfoField (Double : Type) where
  commissionRateModelID : ℤ
  (instrumentID investorRange : Bytes)
  (openRatioByMoney openRatioByVolume closeRatioByMoney closeRatioByVolume
    closeTodayRatioByMoney closeTodayRatioByVolume : Double)
deriving Inhabited

/-- The texts that `UpdCommissionRateInfo` pastes. -/
def CommissionRateInfoField.values (field : CommissionRateInfoField Double) : Row :=
  [field.instrumentID, field.investorRange, c.ofDouble field.openRatioByMoney,
    c.ofDouble field.openRatioByVolume, c.ofDouble field.closeRatioByMoney,
    c.ofDouble field.closeRatioByVolume, c.ofDouble field.closeTodayRatioByMoney,
    c.ofDouble field.closeTodayRatioByVolume]

/-- The statement of `UpdCommissionRateInfo`. -/
def updCommissionRateInfo (field : CommissionRateInfoField Double) : Bytes :=
  replaceText commissionRateTable (field.values c)

/-- The assignments of the getters. -/
def CommissionRateInfoField.assign (field : CommissionRateInfoField Double) (row : Row) :
    CommissionRateInfoField Double :=
  { field with
    instrumentID := row.column 0
    investorRange := row.column 1
    openRatioByMoney := c.toDouble (row.column 2)
    openRatioByVolume := c.toDouble (row.column 3)
    closeRatioByMoney := c.toDouble (row.column 4)
    closeRatioByVolume := c.toDouble (row.column 5)
    closeTodayRatioByMoney := c.toDouble (row.column 6)
    closeTodayRatioByVolume := c.toDouble (row.column 7) }

/-- Everything but the model is read back. -/
theorem CommissionRateInfoField.assign_values (before field : CommissionRateInfoField Double) :
    before.assign c (field.values c) =
      { field with commissionRateModelID := before.commissionRateModelID } := by
  simp [CommissionRateInfoField.assign, CommissionRateInfoField.values, Row.column]

/-- The six rates multiplied by a factor. -/
def CommissionRateInfoField.scale [Mul Double] (field : CommissionRateInfoField Double)
    (factor : Double) : CommissionRateInfoField Double :=
  { field with
    openRatioByMoney := field.openRatioByMoney * factor
    openRatioByVolume := field.openRatioByVolume * factor
    closeRatioByMoney := field.closeRatioByMoney * factor
    closeRatioByVolume := field.closeRatioByVolume * factor
    closeTodayRatioByMoney := field.closeTodayRatioByMoney * factor
    closeTodayRatioByVolume := field.closeTodayRatioByVolume * factor }

/-- The three rates by volume raised by an amount. -/
def CommissionRateInfoField.raise [Add Double] (field : CommissionRateInfoField Double)
    (amount : Double) : CommissionRateInfoField Double :=
  { field with
    openRatioByVolume := field.openRatioByVolume + amount
    closeRatioByVolume := field.closeRatioByVolume + amount
    closeTodayRatioByVolume := field.closeTodayRatioByVolume + amount }

/-- A model of commission rates. -/
structure CommissionRateModelInfoField (Double : Type) where
  commissionRateModelID : ℤ
  (commissionRateModelName creator createDate comment : Bytes)
  isBasicsModel : ℤ
  (baseOnBasicsByMoney baseOnBasicsByVolume : Double)
deriving Inhabited

/-- The assignments of `GetCommissionRateModelInfo`. -/
def CommissionRateModelInfoField.ofRow (row : Row) : CommissionRateModelInfoField Double where
  commissionRateModelID := c.toInt (row.column 0)
  commissionRateModelName := row.column 1
  creator := row.column 2
  createDate := row.column 3
  comment := row.column 4
  isBasicsModel := c.toInt (row.column 5)
  baseOnBasicsByMoney := c.toDouble (row.column 6)
  baseOnBasicsByVolume := c.toDouble (row.column 7)

/-! ### Orders -/

/-- An order. The two combination flags are whole `char` arrays, since the getters assign single
positions of them; the other arrays are the texts they hold. -/
structure OrderField (Double : Type) where
  (brokerID investorID instrumentID orderRef userID : Bytes)
  (orderPriceType direction : UInt8)
  (combOffsetFlag combHedgeFlag : Bytes)
  limitPrice : Double
  volumeTotalOriginal : ℤ
  timeCondition : UInt8
  gtdDate : Bytes
  volumeCondition : UInt8
  minVolume : ℤ
  contingentCondition : UInt8
  stopPrice : Double
  forceCloseReason : UInt8
  isAutoSuspend : ℤ
  businessUnit : Bytes
  requestID : ℤ
  (orderLocalID exchangeID participantID clientID exchangeInstID traderID : Bytes)
  installID : ℤ
  orderSubmitStatus : UInt8
  notifySequence : ℤ
  tradingDay : Bytes
  settlementID : ℤ
  orderSysID : Bytes
  (orderSource orderStatus orderType : UInt8)
  (volumeTraded volumeTotal : ℤ)
  (insertDate insertTime activeTime suspendTime updateTime cancelTime activeTraderID
    clearingPartID : Bytes)
  (sequenceNo frontID sessionID : ℤ)
  (userProductInfo statusMsg : Bytes)
  userForceClose : ℤ
  activeUserID : Bytes
  brokerOrderSeq : ℤ
  relativeOrderSysID : Bytes
  (zceTotalTradedVolume isSwapOrder : ℤ)
deriving Inhabited

/-- The texts that `UpdOrder` pastes. -/
def OrderField.values (field : OrderField Double) : Row :=
  [field.brokerID, field.investorID, field.instrumentID, field.orderRef, field.userID,
    [field.orderPriceType], [field.direction], cString field.combOffsetFlag,
    cString field.combHedgeFlag, c.ofDouble field.limitPrice, c.ofInt field.volumeTotalOriginal,
    [field.timeCondition], field.gtdDate, [field.volumeCondition], c.ofInt field.minVolume,
    [field.contingentCondition], c.ofDouble field.stopPrice, [field.forceCloseReason],
    c.ofInt field.isAutoSuspend, field.businessUnit, c.ofInt field.requestID, field.orderLocalID,
    field.exchangeID, field.participantID, field.clientID, field.exchangeInstID, field.traderID,
    c.ofInt field.installID, [field.orderSubmitStatus], c.ofInt field.notifySequence,
    field.tradingDay, c.ofInt field.settlementID, field.orderSysID, [field.orderSource],
    [field.orderStatus], [field.orderType], c.ofInt field.volumeTraded, c.ofInt field.volumeTotal,
    field.insertDate, field.insertTime, field.activeTime, field.suspendTime, field.updateTime,
    field.cancelTime, field.activeTraderID, field.clearingPartID, c.ofInt field.sequenceNo,
    c.ofInt field.frontID, c.ofInt field.sessionID, field.userProductInfo, field.statusMsg,
    c.ofInt field.userForceClose, field.activeUserID, c.ofInt field.brokerOrderSeq,
    field.relativeOrderSysID, c.ofInt field.zceTotalTradedVolume, c.ofInt field.isSwapOrder]

/-- The statement of `UpdOrder`. -/
def updOrder (field : OrderField Double) : Bytes := replaceText orderTable (field.values c)

/-- The assignments of the getters. -/
def OrderField.assign (field : OrderField Double) (row : Row) : OrderField Double :=
  { field with
    brokerID := row.column 0
    investorID := row.column 1
    instrumentID := row.column 2
    orderRef := row.column 3
    userID := row.column 4
    orderPriceType := firstByte (row.column 5)
    direction := firstByte (row.column 6)
    combOffsetFlag := setFirst field.combOffsetFlag (firstByte (row.column 7))
    combHedgeFlag := setFirst field.combHedgeFlag (firstByte (row.column 8))
    limitPrice := c.toDouble (row.column 9)
    volumeTotalOriginal := c.toInt (row.column 10)
    timeCondition := firstByte (row.column 11)
    gtdDate := row.column 12
    volumeCondition := firstByte (row.column 13)
    minVolume := c.toInt (row.column 14)
    contingentCondition := firstByte (row.column 15)
    stopPrice := c.toDouble (row.column 16)
    forceCloseReason := firstByte (row.column 17)
    isAutoSuspend := c.toInt (row.column 18)
    businessUnit := row.column 19
    requestID := c.toInt (row.column 20)
    orderLocalID := row.column 21
    exchangeID := row.column 22
    participantID := row.column 23
    clientID := row.column 24
    exchangeInstID := row.column 25
    traderID := row.column 26
    installID := c.toInt (row.column 27)
    orderSubmitStatus := firstByte (row.column 28)
    notifySequence := c.toInt (row.column 29)
    tradingDay := row.column 30
    settlementID := c.toInt (row.column 31)
    orderSysID := row.column 32
    orderSource := firstByte (row.column 33)
    orderStatus := firstByte (row.column 34)
    orderType := firstByte (row.column 35)
    volumeTraded := c.toInt (row.column 36)
    volumeTotal := c.toInt (row.column 37)
    insertDate := row.column 38
    insertTime := row.column 39
    activeTime := row.column 40
    suspendTime := row.column 41
    updateTime := row.column 42
    cancelTime := row.column 43
    activeTraderID := row.column 44
    clearingPartID := row.column 45
    sequenceNo := c.toInt (row.column 46)
    frontID := c.toInt (row.column 47)
    sessionID := c.toInt (row.column 48)
    userProductInfo := row.column 49
    statusMsg := row.column 50
    userForceClose := c.toInt (row.column 51)
    activeUserID := row.column 52
    brokerOrderSeq := c.toInt (row.column 53)
    relativeOrderSysID := row.column 54
    zceTotalTradedVolume := c.toInt (row.column 55)
    isSwapOrder := c.toInt (row.column 56) }

/-- The records agree, except that only the first bytes of the two combination flags do. -/
def OrderField.AgreesUpToLegs (stored read : OrderField Double) : Prop :=
  (cString read.combOffsetFlag).head? = (cString stored.combOffsetFlag).head? ∧
    (cString read.combHedgeFlag).head? = (cString stored.combHedgeFlag).head? ∧
    { read with
      combOffsetFlag := stored.combOffsetFlag
      combHedgeFlag := stored.combHedgeFlag } = stored

/-- The first byte of an array's text is what the getters put in front of another array. -/
theorem head_setFirst (array before : Bytes) :
    (cString (setFirst before (firstByte (cString array)))).head? = (cString array).head? := by
  cases htext : cString array with
  | nil => rfl
  | cons byte text =>
    have hne : byte ≠ 0 := by
      have hmem : byte ∈ cString array := htext ▸ List.mem_cons_self
      simpa using List.mem_takeWhile_imp hmem
    rw [firstByte, List.headD_cons, setFirst, cString,
      List.takeWhile_cons_of_pos (by simpa using hne)]
    rfl

theorem OrderField.assign_values (before field : OrderField Double) :
    field.AgreesUpToLegs (before.assign c (field.values c)) := by
  refine ⟨head_setFirst field.combOffsetFlag _, head_setFirst field.combHedgeFlag _, ?_⟩
  simp [OrderField.assign, OrderField.values, Row.column, firstByte]

/-! ### Trading accounts -/

/-- A trading account. -/
structure TradingAccountField (Double : Type) where
  (brokerID accountID : Bytes)
  (preMortgage preCredit preDeposit preBalance preMargin interestBase interest deposit withdraw
    frozenMargin frozenCash frozenCommission currMargin cashIn commission closeProfit
    positionProfit balance available withdrawQuota reserve : Double)
  tradingDay : Bytes
  settlementID : ℤ
  (credit mortgage exchangeMargin deliveryMargin exchangeDeliveryMargin : Double)
deriving Inhabited

/-- The texts that `UpdTradingAccount` pastes. -/
def TradingAccountField.values (field : TradingAccountField Double) : Row :=
  [field.brokerID, field.accountID, c.ofDouble field.preMortgage, c.ofDouble field.preCredit,
    c.ofDouble field.preDeposit, c.ofDouble field.preBalance, c.ofDouble field.preMargin,
    c.ofDouble field.interestBase, c.ofDouble field.interest, c.ofDouble field.deposit,
    c.ofDouble field.withdraw, c.ofDouble field.frozenMargin, c.ofDouble field.frozenCash,
    c.ofDouble field.frozenCommission, c.ofDouble field.currMargin, c.ofDouble field.cashIn,
    c.ofDouble field.commission, c.ofDouble field.closeProfit, c.ofDouble field.positionProfit,
    c.ofDouble field.balance, c.ofDouble field.available, c.ofDouble field.withdrawQuota,
    c.ofDouble field.reserve, field.tradingDay, c.ofInt field.settlementID,
    c.ofDouble field.credit, c.ofDouble field.mortgage, c.ofDouble field.exchangeMargin,
    c.ofDouble field.deliveryMargin, c.ofDouble field.exchangeDeliveryMargin]

/-- The statement of `UpdTradingAccount`. -/
def updTradingAccount (field : TradingAccountField Double) : Bytes :=
  replaceText tradingAccountTable (field.values c)

/-- The assignments of the getters. -/
def TradingAccountField.ofRow (row : Row) : TradingAccountField Double where
  brokerID := row.column 0
  accountID := row.column 1
  preMortgage := c.toDouble (row.column 2)
  preCredit := c.toDouble (row.column 3)
  preDeposit := c.toDouble (row.column 4)
  preBalance := c.toDouble (row.column 5)
  preMargin := c.toDouble (row.column 6)
  interestBase := c.toDouble (row.column 7)
  interest := c.toDouble (row.column 8)
  deposit := c.toDouble (row.column 9)
  withdraw := c.toDouble (row.column 10)
  frozenMargin := c.toDouble (row.column 11)
  frozenCash := c.toDouble (row.column 12)
  frozenCommission := c.toDouble (row.column 13)
  currMargin := c.toDouble (row.column 14)
  cashIn := c.toDouble (row.column 15)
  commission := c.toDouble (row.column 16)
  closeProfit := c.toDouble (row.column 17)
  positionProfit := c.toDouble (row.column 18)
  balance := c.toDouble (row.column 19)
  available := c.toDouble (row.column 20)
  withdrawQuota := c.toDouble (row.column 21)
  reserve := c.toDouble (row.column 22)
  tradingDay := row.column 23
  settlementID := c.toInt (row.column 24)
  credit := c.toDouble (row.column 25)
  mortgage := c.toDouble (row.column 26)
  exchangeMargin := c.toDouble (row.column 27)
  deliveryMargin := c.toDouble (row.column 28)
  exchangeDeliveryMargin := c.toDouble (row.column 29)

@[simp]
theorem TradingAccountField.ofRow_values (field : TradingAccountField Double) :
    TradingAccountField.ofRow c (field.values c) = field := by
  simp [TradingAccountField.ofRow, TradingAccountField.values, Row.column]

/-! ### Positions -/

/-- A position. -/
structure InvestorPositionField (Double : Type) where
  (tradingDay brokerID investorID instrumentID : Bytes)
  (posiDirection hedgeFlag : UInt8)
  avgPositionPrice : Double
  positionDate : UInt8
  (ydPosition position longFrozen shortFrozen : ℤ)
  (longFrozenAmount shortFrozenAmount : Double)
  (openVolume closeVolume : ℤ)
  (openAmount closeAmount positionCost preMargin useMargin frozenMargin frozenCash
    frozenCommission cashIn commission closeProfit positionProfit preSettlementPrice
    settlementPrice : Double)
  settlementID : ℤ
  (openCost exchangeMargin : Double)
  (combPosition combLongFrozen combShortFrozen : ℤ)
  (closeProfitByDate closeProfitByTrade : Double)
  todayPosition : ℤ
  (marginRateByMoney marginRateByVolume : Double)
  (closableNum todayClosableNum : ℤ)
deriving Inhabited

/-- The texts that `UpdPosition` pastes. -/
def InvestorPositionField.values (field : InvestorPositionField Double) : Row :=
  [field.tradingDay, field.brokerID, field.investorID, field.instrumentID, [field.posiDirection],
    [field.hedgeFlag], c.ofDouble field.avgPositionPrice, [field.positionDate],
    c.ofInt field.ydPosition, c.ofInt field.position, c.ofInt field.longFrozen,
    c.ofInt field.shortFrozen, c.ofDouble field.longFrozenAmount,
    c.ofDouble field.shortFrozenAmount, c.ofInt field.openVolume, c.ofInt field.closeVolume,
    c.ofDouble field.openAmount, c.ofDouble field.closeAmount, c.ofDouble field.positionCost,
    c.ofDouble field.preMargin, c.ofDouble field.useMargin, c.ofDouble field.frozenMargin,
    c.ofDouble field.frozenCash, c.ofDouble field.frozenCommission, c.ofDouble field.cashIn,
    c.ofDouble field.commission, c.ofDouble field.closeProfit, c.ofDouble field.positionProfit,
    c.ofDouble field.preSettlementPrice, c.ofDouble field.settlementPrice,
    c.ofInt field.settlementID, c.ofDouble field.openCost, c.ofDouble field.exchangeMargin,
    c.ofInt field.combPosition, c.ofInt field.combLongFrozen, c.ofInt field.combShortFrozen,
    c.ofDouble field.closeProfitByDate, c.ofDouble field.closeProfitByTrade,
    c.ofInt field.todayPosition, c.ofDouble field.marginRateByMoney,
    c.ofDouble field.marginRateByVolume, c.ofInt field.closableNum, c.ofInt field.todayClosableNum]

/-- The statement of `UpdPosition`. -/
def updPosition (field : InvestorPositionField Double) : Bytes :=
  replaceText positionTable (field.values c)

/-- The assignments of the getters. -/
def InvestorPositionField.ofRow (row : Row) : InvestorPositionField Double where
  tradingDay := row.column 0
  brokerID := row.column 1
  investorID := row.column 2
  instrumentID := row.column 3
  posiDirection := firstByte (row.column 4)
  hedgeFlag := firstByte (row.column 5)
  avgPositionPrice := c.toDouble (row.column 6)
  positionDate := firstByte (row.column 7)
  ydPosition := c.toInt (row.column 8)
  position := c.toInt (row.column 9)
  longFrozen := c.toInt (row.column 10)
  shortFrozen := c.toInt (row.column 11)
  longFrozenAmount := c.toDouble (row.column 12)
  shortFrozenAmount := c.toDouble (row.column 13)
  openVolume := c.toInt (row.column 14)
  closeVolume := c.toInt (row.column 15)
  openAmount := c.toDouble (row.column 16)
  closeAmount := c.toDouble (row.column 17)
  positionCost := c.toDouble (row.column 18)
  preMargin := c.toDouble (row.column 19)
  useMargin := c.toDouble (row.column 20)
  frozenMargin := c.toDouble (row.column 21)
  frozenCash := c.toDouble (row.column 22)
  frozenCommission := c.toDouble (row.column 23)
  cashIn := c.toDouble (row.column 24)
  commission := c.toDouble (row.column 25)
  closeProfit := c.toDouble (row.column 26)
  positionProfit := c.toDouble (row.column 27)
  preSettlementPrice := c.toDouble (row.column 28)
  settlementPrice := c.toDouble (row.column 29)
  settlementID := c.toInt (row.column 30)
  openCost := c.toDouble (row.column 31)
  exchangeMargin := c.toDouble (row.column 32)
  combPosition := c.toInt (row.column 33)
  combLongFrozen := c.toInt (row.column 34)
  combShortFrozen := c.toInt (row.column 35)
  closeProfitByDate := c.toDouble (row.column 36)
  closeProfitByTrade := c.toDouble (row.column 37)
  todayPosition := c.toInt (row.column 38)
  marginRateByMoney := c.toDouble (row.column 39)
  marginRateByVolume := c.toDouble (row.column 40)
  closableNum := c.toInt (row.column 41)
  todayClosableNum := c.toInt (row.column 42)

@[simp]
theorem InvestorPositionField.ofRow_values (field : InvestorPositionField Double) :
    InvestorPositionField.ofRow c (field.values c) = field := by
  simp [InvestorPositionField.ofRow, InvestorPositionField.values, Row.column, firstByte]

/-! ### Cloud orders -/

/-- A cloud order. -/
structure CloudOrderField (Double : Type) where
  cloudOrderID : ℤ
  (brokerID investorID exchangeID instrumentID direction offsetFlag hedgeFlag type
    triggeringTime validityPeriodType insertDate insertTime : Bytes)
  price : Double
  (totalVolume tradedVolume frozenVolume status : ℤ)
  (statusMsg priceType triggeringPriceType : Bytes)
  (minPrice maxPrice : Double)
  (leadOrderInsertTick step : ℤ)
  maxWinningPrice : Double
  (stopWinningTickNum stopLossingTickNum : ℤ)
  (stopWinningPrice stopLossingPrice : Double)
  triggeringDate : Bytes
deriving Inhabited

/-- The texts that `UpdCloudOrder` pastes. -/
def CloudOrderField.values (field : CloudOrderField Double) : Row :=
  [generatedID c field.cloudOrderID, field.brokerID, field.investorID, field.exchangeID,
    field.instrumentID, field.direction, field.offsetFlag, field.hedgeFlag, field.type,
    field.triggeringTime, field.validityPeriodType, field.insertDate, field.insertTime,
    c.ofDouble field.price, c.ofInt field.totalVolume, c.ofInt field.tradedVolume,
    c.ofInt field.frozenVolume, c.ofInt field.status, field.statusMsg, field.priceType,
    field.triggeringPriceType, c.ofDouble field.minPrice, c.ofDouble field.maxPrice,
    c.ofInt field.leadOrderInsertTick, c.ofInt field.step, c.ofDouble field.maxWinningPrice,
    c.ofInt field.stopWinningTickNum, c.ofInt field.stopLossingTickNum,
    c.ofDouble field.stopWinningPrice, c.ofDouble field.stopLossingPrice, field.triggeringDate]

/-- The statement of `UpdCloudOrder`. -/
def updCloudOrder (field : CloudOrderField Double) : Bytes :=
  replaceText cloudOrderTable (field.values c)

/-- The statement of `UpdHisCloudOrder`. -/
def updHisCloudOrder (field : CloudOrderField Double) : Bytes :=
  replaceText hisCloudOrderTable (field.values c)

/-- The assignments of the getters. -/
def CloudOrderField.ofRow (row : Row) : CloudOrderField Double where
  cloudOrderID := c.toInt (row.column 0)
  brokerID := row.column 1
  investorID := row.column 2
  exchangeID := row.column 3
  instrumentID := row.column 4
  direction := row.column 5
  offsetFlag := row.column 6
  hedgeFlag := row.column 7
  type := row.column 8
  triggeringTime := row.column 9
  validityPeriodType := row.column 10
  insertDate := row.column 11
  insertTime := row.column 12
  price := c.toDouble (row.column 13)
  totalVolume := c.toInt (row.column 14)
  tradedVolume := c.toInt (row.column 15)
  frozenVolume := c.toInt (row.column 16)
  status := c.toInt (row.column 17)
  statusMsg := row.column 18
  priceType := row.column 19
  triggeringPriceType := row.column 20
  minPrice := c.toDouble (row.column 21)
  maxPrice := c.toDouble (row.column 22)
  leadOrderInsertTick := c.toInt (row.column 23)
  step := c.toInt (row.column 24)
  maxWinningPrice := c.toDouble (row.column 25)
  stopWinningTickNum := c.toInt (row.column 26)
  stopLossingTickNum := c.toInt (row.column 27)
  stopWinningPrice := c.toDouble (row.column 28)
  stopLossingPrice := c.toDouble (row.column 29)
  triggeringDate := row.column 30

theorem CloudOrderField.ofRow_values {field : CloudOrderField Double}
    (hid : 0 < field.cloudOrderID) : CloudOrderField.ofRow c (field.values c) = field := by
  simp [CloudOrderField.ofRow, CloudOrderField.values, Row.column, generatedID_of_pos c hid]

/-! ### Cash flows -/

/-- A cash flow. -/
structure CashFlowField (Double : Type) where
  cashFlowID : ℤ
  (brokerID investorID currencyCode type : Bytes)
  amount : Double
  (date time operatorCode : Bytes)
  (preCapital capital : Double)
  comment : Bytes
  isHandled : ℤ
deriving Inhabited

/-- The texts that `UpdCashFlow` pastes. -/
def CashFlowField.values (field : CashFlowField Double) : Row :=
  [c.ofInt field.cashFlowID, field.brokerID, field.investorID, field.currencyCode, field.type,
    c.ofDouble field.amount, field.date, field.time, field.operatorCode,
    c.ofDouble field.preCapital, c.ofDouble field.capital, field.comment, c.ofInt field.isHandled]

/-- The statement of `UpdCashFlow`. -/
def updCashFlow (field : CashFlowField Double) : Bytes := replaceText cashFlowTable (field.values c)

/-- The assignments of the getters. -/
def CashFlowField.ofRow (row : Row) : CashFlowField Double where
  cashFlowID := c.toInt (row.column 0)
  brokerID := row.column 1
  investorID := row.column 2
  currencyCode := row.column 3
  type := row.column 4
  amount := c.toDouble (row.column 5)
  date := row.column 6
  time := row.column 7
  operatorCode := row.column 8
  preCapital := c.toDouble (row.column 9)
  capital := c.toDouble (row.column 10)
  comment := row.column 11
  isHandled := c.toInt (row.column 12)

@[simp]
theorem CashFlowField.ofRow_values (field : CashFlowField Double) :
    CashFlowField.ofRow c (field.values c) = field := by
  simp [CashFlowField.ofRow, CashFlowField.values, Row.column]

/-! ### Settlement sheets -/

/-- A settlement sheet with its sixteen parts. -/
structure SettlementSheetField where
  (brokerID investorID settlementDate : Bytes)
  settlementID : ℤ
  (chineseHeaderString chineseDateString chineseEquityString chineseEquityAdjustString
    chineseTradeString chinesePositionString chinesePositionAdjustString chineseTailString
    englishHeaderString englishDateString englishEquityString englishEquityAdjustString
    englishTradeString englishPositionString englishPositionAdjustString
    englishTailString : Bytes)
deriving Inhabited

/-- The text of a sheet: its parts, one behind the other. -/
def SettlementSheetField.strSettlementSheet (field : SettlementSheetField) : Bytes :=
  field.chineseHeaderString ++ field.chineseDateString ++ field.chineseEquityString ++
    field.chineseEquityAdjustString ++ field.chineseTradeString ++ field.chinesePositionString ++
    field.chinesePositionAdjustString ++ field.chineseTailString ++ field.englishHeaderString ++
    field.englishDateString ++ field.englishEquityString ++ field.englishEquityAdjustString ++
    field.englishTradeString ++ field.englishPositionString ++
    field.englishPositionAdjustString ++ field.englishTailString

/-- The texts that `UpdSettlementSheet` pastes. -/
def SettlementSheetField.values (field : SettlementSheetField) : Row :=
  [field.brokerID, field.investorID, field.settlementDate, c.ofInt field.settlementID,
    field.strSettlementSheet]

/-- The statement of `UpdSettlementSheet`. -/
def updSettlementSheet (field : SettlementSheetField) : Bytes :=
  replaceText investorSettlementSheetTable (field.values c)

/-! ### Risk templates -/

/-- A risk template. -/
structure TradeRiskTmplField where
  (brokerID investorID : Bytes)
  clientType : ℤ
  (time tradeRiskTmplTxt : Bytes)
deriving Inhabited

/-- The texts that `UpdTradeRiskTmpl` pastes. -/
def TradeRiskTmplField.values (field : TradeRiskTmplField) : Row :=
  [field.brokerID, field.investorID, c.ofInt field.clientType, field.time, []]

/-- The statement of `UpdTradeRiskTmpl`. -/
def updTradeRiskTmpl (field : TradeRiskTmplField) : Bytes :=
  replaceText tradeRiskTmplTable (field.values c)

/-- The assignments of the getters. -/
def TradeRiskTmplField.ofRow (row : Row) : TradeRiskTmplField where
  brokerID := row.column 0
  investorID := row.column 1
  clientType := c.toInt (row.column 2)
  time := row.column 3
  tradeRiskTmplTxt := row.column 4

/-- Everything but the text of the template is read back. -/
theorem TradeRiskTmplField.ofRow_values (field : TradeRiskTmplField) :
    { TradeRiskTmplField.ofRow c (field.values c) with
      tradeRiskTmplTxt := field.tradeRiskTmplTxt } = field := by
  simp [TradeRiskTmplField.ofRow, TradeRiskTmplField.values, Row.column]

/-! ### Trade counters -/

/-- A trade counter. -/
structure TradeCounterField where
  tradeCounterID : ℤ
  (brokerID name protocol frontAddr appID relayAppID authCode : Bytes)
  isDefault : ℤ
deriving Inhabited

/-- The texts that `UpdTradeCounter` pastes. -/
def TradeCounterField.values (field : TradeCounterField) : Row :=
  [generatedID c field.tradeCounterID, field.brokerID, field.name, field.protocol,
    field.frontAddr, field.appID, field.relayAppID, field.authCode, c.ofInt field.isDefault]

/-- The statement of `UpdTradeCounter`. -/
def updTradeCounter (field : TradeCounterField) : Bytes :=
  replaceText tradeCounterTable (field.values c)

/-- The assignments of the getters. -/
def TradeCounterField.ofRow (row : Row) : TradeCounterField where
  tradeCounterID := c.toInt (row.column 0)
  brokerID := row.column 1
  name := row.column 2
  protocol := row.column 3
  frontAddr := row.column 4
  appID := row.column 5
  relayAppID := row.column 6
  authCode := row.column 7
  isDefault := c.toInt (row.column 8)

theorem TradeCounterField.ofRow_values {field : TradeCounterField}
    (hid : 0 < field.tradeCounterID) : TradeCounterField.ofRow c (field.values c) = field := by
  simp [TradeCounterField.ofRow, TradeCounterField.values, Row.column, generatedID_of_pos c hid]

/-! ### Ticks -/

/-- A tick. Only the fields that `UpdLastTick` stores are listed. -/
structure DepthMarketDataField (Double : Type) where
  (tradingDay instrumentID exchangeID : Bytes)
  (lastPrice openPrice highestPrice lowestPrice closePrice openInterest turnover : Double)
  updateTime : Bytes
  updateMillisec : ℤ
deriving Inhabited

/-- The texts that `UpdLastTick` pastes. -/
def DepthMarketDataField.values (field : DepthMarketDataField Double) : Row :=
  [field.tradingDay, field.instrumentID, field.exchangeID, c.ofDouble field.lastPrice,
    c.ofDouble field.openPrice, c.ofDouble field.highestPrice, c.ofDouble field.lowestPrice,
    c.ofDouble field.closePrice, c.ofDouble field.openInterest, c.ofDouble field.turnover,
    field.updateTime, c.ofInt field.updateMillisec]

/-- The statement of `UpdLastTick`. -/
def updLastTick (field : DepthMarketDataField Double) : Bytes :=
  replaceText lastTickTable (field.values c)

/-- The assignments of the getters. -/
def DepthMarketDataField.ofRow (row : Row) : DepthMarketDataField Double where
  tradingDay := row.column 0
  instrumentID := row.column 1
  exchangeID := row.column 2
  lastPrice := c.toDouble (row.column 3)
  openPrice := c.toDouble (row.column 4)
  highestPrice := c.toDouble (row.column 5)
  lowestPrice := c.toDouble (row.column 6)
  closePrice := c.toDouble (row.column 7)
  openInterest := c.toDouble (row.column 8)
  turnover := c.toDouble (row.column 9)
  updateTime := row.column 10
  updateMillisec := c.toInt (row.column 11)

@[simp]
theorem DepthMarketDataField.ofRow_values (field : DepthMarketDataField Double) :
    DepthMarketDataField.ofRow c (field.values c) = field := by
  simp [DepthMarketDataField.ofRow, DepthMarketDataField.values, Row.column]

end TradeServers.DbLayer
