import TradeServers.DbLayer.Operations

/-!
# The getters that fill a vector

A `Get` operation that lists records reads every row of its result set into one local record, which
it appends to the vector of its caller. `Get.listing` has the assignments of each of these loops,
and `Listing.fill` the loop. `coherent_iff` says which operations append a record for each row that
depends on no other row: the getter of a server's investors reads their trade counter from row 0.
-/

set_option autoImplicit false
set_option relaxedAutoImplicit false

namespace TradeServers.DbLayer

/-! ### Records of other tables -/

section Records

variable {Double : Type} (c : Conversions Double)

/-- An exchange. -/
structure ExchangeInfoField where
  (exchangeID exchangeName : Bytes)
  exchTypeID : ℤ
  currencyCode : Bytes
  isMarginFavourable : ℤ
  comment : Bytes
deriving Inhabited

/-- The assignments of the getters. -/
def ExchangeInfoField.ofRow (row : Row) : ExchangeInfoField where
  exchangeID := row.column 0
  exchangeName := row.column 1
  exchTypeID := c.toInt (row.column 2)
  currencyCode := row.column 3
  isMarginFavourable := c.toInt (row.column 4)
  comment := row.column 5

/-- A broker. -/
structure BrokerInfoField where
  (brokerID shortName name type address : Bytes)
  isActive : ℤ
  comment : Bytes
deriving Inhabited

/-- The assignments of the getters, which leave out the first column. -/
def BrokerInfoField.ofRow (row : Row) : BrokerInfoField where
  brokerID := row.column 1
  shortName := row.column 2
  name := row.column 3
  type := row.column 4
  address := row.column 5
  isActive := c.toInt (row.column 6)
  comment := row.column 7

/-- The assignments of the getters. -/
def TradeField.ofRow (row : Row) : TradeField Double where
  brokerID := row.column 0
  investorID := row.column 1
  instrumentID := row.column 2
  orderRef := row.column 3
  userID := row.column 4
  exchangeID := row.column 5
  tradeID := row.column 6
  direction := firstByte (row.column 7)
  orderSysID := row.column 8
  participantID := row.column 9
  clientID := row.column 10
  tradingRole := firstByte (row.column 11)
  exchangeInstID := row.column 12
  offsetFlag := firstByte (row.column 13)
  hedgeFlag := firstByte (row.column 14)
  price := c.toDouble (row.column 15)
  volume := c.toInt (row.column 16)
  tradeDate := row.column 17
  tradeTime := row.column 18
  tradeType := firstByte (row.column 19)
  priceSource := firstByte (row.column 20)
  orderLocalID := row.column 21
  clearingPartID := row.column 22
  businessUnit := row.column 23
  sequenceNo := c.toInt (row.column 24)
  tradingDay := row.column 25
  settlementID := c.toInt (row.column 26)
  brokerOrderSeq := c.toInt (row.column 27)
  tradeSource := firstByte (row.column 28)
  closeProfit := c.toDouble (row.column 29)
  commission := c.toDouble (row.column 30)

/-- The assignments of the getters. -/
def InvestorPositionDetailField.ofRow (row : Row) : InvestorPositionDetailField Double where
  brokerID := row.column 0
  investorID := row.column 1
  instrumentID := row.column 2
  direction := firstByte (row.column 3)
  hedgeFlag := firstByte (row.column 4)
  openDate := row.column 5
  tradeID := row.column 6
  openPrice := c.toDouble (row.column 7)
  volume := c.toInt (row.column 8)
  tradeType := firstByte (row.column 9)
  combInstrumentID := row.column 10
  exchangeID := row.column 11
  margin := c.toDouble (row.column 12)
  lastSettlementPrice := c.toDouble (row.column 13)
  tradingDay := row.column 14

/-- The assignments of `GetAutoStopLoss`. -/
def AutoStopLossField.ofRow (row : Row) : AutoStopLossField Double where
  brokerID := row.column 0
  investorID := row.column 1
  instrumentID := row.column 2
  autoStopLossTickNum := c.toInt (row.column 3)
  autoWinningTickNum := c.toInt (row.column 4)
  floatingStopLossTickNum := c.toInt (row.column 5)
  floatingStopWinningTickNum := c.toInt (row.column 6)
  step := c.toDouble (row.column 7)

/-- The assignments of the getters. -/
def ExecOrderField.ofRow (row : Row) : ExecOrderField where
  brokerID := row.column 0
  investorID := row.column 1
  instrumentID := row.column 2
  execOrderRef := row.column 3
  userID := row.column 4
  volume := c.toInt (row.column 5)
  requestID := c.toInt (row.column 6)
  businessUnit := row.column 7
  offsetFlag := row.column 8
  hedgeFlag := row.column 9
  actionType := row.column 10
  posiDirection := row.column 11
  reservePositionFlag := row.column 12
  closeFlag := row.column 13
  execOrderLocalID := row.column 14
  exchangeID := row.column 15
  participantID := row.column 16
  clientID := row.column 17
  exchangeInstID := row.column 18
  traderID := row.column 19
  installID := c.toInt (row.column 20)
  orderSubmitStatus := row.column 21
  notifySequence := c.toInt (row.column 22)
  tradingDay := row.column 23
  settlementID := c.toInt (row.column 24)
  execOrderSysID := row.column 25
  insertDate := row.column 26
  insertTime := row.column 27
  cancelTime := row.column 28
  execResult := row.column 29
  clearingPartID := row.column 30
  sequenceNo := c.toInt (row.column 31)
  frontID := c.toInt (row.column 32)
  sessionID := c.toInt (row.column 33)
  userProductInfo := row.column 34
  statusMsg := row.column 35
  activeUserID := row.column 36
  brokerExecOrderSeq := c.toInt (row.column 37)
  branchID := row.column 38
  investUnitID := row.column 39
  accountID := row.column 40
  currencyID := row.column 41
  ipAddress := row.column 42
  macAddress := row.column 43

end Records

/-! ### The loops -/

/-- The loop of a getter that lists records: whether it clears the vector of its caller first,
whether a result set without rows is an answer, and its assignments for a row of a result set. -/
structure Listing (Record : Type) where
  clears : Bool
  acceptsNone : Bool
  assign : List Row → Record → Row → Record

namespace Listing

variable {Record : Type}

/-- What a call leaves of the records that were in the vector. -/
def kept (listing : Listing Record) (fieldsVec : List Record) : List Record :=
  if listing.clears then [] else fieldsVec

/-- What a getter returns and the vector it leaves, given its local record and the result set of its
query, or none when that fails. The number of rows is an `int`. -/
def fill (listing : Listing Record) (field : Record) (fieldsVec : List Record) :
    Option (List Row) → Bool × List Record
  | none => (false, listing.kept fieldsVec)
  | some rows =>
    let recordCount := toInt32 rows.length
    if recordCount < 0 ∨ (recordCount = 0 ∧ listing.acceptsNone = false) then
      (false, listing.kept fieldsVec)
    else
      (true, listing.kept fieldsVec ++
        readRows (listing.assign rows) field (rows.take recordCount.toNat))

/-- For every result set of so many rows, a call appends a record for each row, in their order, and
the record is a function of the row. -/
def Coherent (listing : Listing Record) (field : Record) (count : ℕ) : Prop :=
  ∃ read : Row → Record, ∀ rows : List Row, rows.length = count → ∀ fieldsVec,
    (listing.fill field fieldsVec (some rows)).2 = listing.kept fieldsVec ++ rows.map read

end Listing

/-- The getters that clear the vector of their caller. -/
def Getter.clears {table : Table} : Getter table → Bool
  | getProductInfos | getInstrumentInfos => true
  | _ => false

/-- The records that an operation lists, if it does. -/
@[reducible]
def Get.Record (Double : Type) : Get → Type
  | @record table _ => table.Record Double
  | exchangeInfos => ExchangeInfoField
  | brokerInfos => BrokerInfoField
  | allMarginRateModelInfo => MarginRateModelInfoField Double
  | allCommissionRateModelInfo => CommissionRateModelInfoField Double
  | hisOrder _ _ _ | allHisOrder _ => OrderField Double
  | trade _ _ | tradeOfDay _ _ _ | allTradeOfDay _ | allTrade | hisTrade _ _ _
  | hisTradeBetween _ _ _ _ | allHisTrade _ => TradeField Double
  | hisCloudOrder _ _ => CloudOrderField Double
  | unHandleHisCashFlow | hisCashFlow _ _ => CashFlowField Double
  | hisPositions _ _ | allHisPositions => InvestorPositionField Double
  | positionDetails _ _ | positionDetailsOf _ _ _ | positionDetailsOfDirection _ _ _ _
  | positionDetailsOfInstrument _ => InvestorPositionDetailField Double
  | autoStopLoss _ _ _ => AutoStopLossField Double
  | execOrder _ _ _ | allExecOrderOfDay _ | allExecOrder | hisExecOrder _ _ _
  | allHisExecOrder _ => ExecOrderField
  | exchangeInfo _ | brokerInfo _ | marginRateModelInfo _ | commissionRateModelInfo _
  | maxOrderSysID | investorsOfOrder | maxTradeID | investorsOfTrade | settlementCash _ _ _
  | settlementSheet _ _ _ | settlementConfirmInfo _ _ | lastDailySettlementFlag
  | serverInvestorRange _ => Empty

section Listings

variable {Double : Type} [Mul Double] [Add Double] [Zero Double] [One Double]
variable (c : Conversions Double) (select : Select)

/-- The loop of a getter of records, if it has one. -/
def Getter.listing {table : Table} (getter : Getter table) :
    Option (Listing (table.Record Double)) :=
  match getter.reading with
  | .each acceptsNone =>
    some ⟨getter.clears, acceptsNone, fun rows ↦ getter.assign c select rows⟩
  | _ => none

/-- The loop of an operation that lists records. -/
def Get.listing : (get : Get) → Option (Listing (get.Record Double))
  | record getter => getter.listing c select
  | exchangeInfos => some ⟨true, false, fun _ _ row ↦ ExchangeInfoField.ofRow c row⟩
  | brokerInfos => some ⟨true, false, fun _ _ row ↦ BrokerInfoField.ofRow c row⟩
  | allMarginRateModelInfo =>
    some ⟨false, false, fun _ _ row ↦ MarginRateModelInfoField.ofRow c row⟩
  | allCommissionRateModelInfo =>
    some ⟨false, false, fun _ _ row ↦ CommissionRateModelInfoField.ofRow c row⟩
  | hisOrder _ _ _ | allHisOrder _ =>
    some ⟨false, true, fun _ field row ↦ OrderField.assign c field row⟩
  | trade _ _ | tradeOfDay _ _ _ | allTradeOfDay _ | allTrade | hisTrade _ _ _
  | hisTradeBetween _ _ _ _ | allHisTrade _ =>
    some ⟨false, true, fun _ _ row ↦ TradeField.ofRow c row⟩
  | hisCloudOrder _ _ => some ⟨false, false, fun _ _ row ↦ CloudOrderField.ofRow c row⟩
  | unHandleHisCashFlow | hisCashFlow _ _ =>
    some ⟨false, true, fun _ _ row ↦ CashFlowField.ofRow c row⟩
  | hisPositions _ _ | allHisPositions =>
    some ⟨false, false, fun _ _ row ↦ InvestorPositionField.ofRow c row⟩
  | positionDetails _ _ | positionDetailsOf _ _ _ | positionDetailsOfDirection _ _ _ _
  | positionDetailsOfInstrument _ =>
    some ⟨false, false, fun _ _ row ↦ InvestorPositionDetailField.ofRow c row⟩
  | autoStopLoss _ _ _ => some ⟨false, false, fun _ _ row ↦ AutoStopLossField.ofRow c row⟩
  | execOrder _ _ _ | allExecOrderOfDay _ | allExecOrder | hisExecOrder _ _ _
  | allHisExecOrder _ => some ⟨false, true, fun _ _ row ↦ ExecOrderField.ofRow c row⟩
  | exchangeInfo _ | brokerInfo _ | marginRateModelInfo _ | commissionRateModelInfo _
  | maxOrderSysID | investorsOfOrder | maxTradeID | investorsOfTrade | settlementCash _ _ _
  | settlementSheet _ _ _ | settlementConfirmInfo _ _ | lastDailySettlementFlag
  | serverInvestorRange _ => none

end Listings

/-! ### Nothing is left over from another row -/

section Readers

variable {ρ : Type} {assign : ρ → Row → ρ}

theorem length_readRows (field : ρ) (rows : List Row) :
    (readRows assign field rows).length = rows.length := by
  induction rows generalizing field with
  | nil => rfl
  | cons row rows ih =>
    rw [readRows, List.length_cons, List.length_cons, ih]

/-- When the assignments for a row leave nothing of the row before, each record is read from the
local record as it was at first. -/
theorem readRows_eq_map (hforget : ∀ field first second,
    assign (assign field first) second = assign field second) (field : ρ) (rows : List Row) :
    readRows assign field rows = rows.map (assign field) := by
  induction rows generalizing field with
  | nil => rfl
  | cons row rows ih =>
    have hsame : assign (assign field row) = assign field := funext (hforget field row)
    rw [readRows, ih, hsame, List.map_cons]

end Readers

section Forgetting

variable {Double : Type} (c : Conversions Double)

theorem MarginRateInfoField.assign_assign (field : MarginRateInfoField Double)
    (first second : Row) : (field.assign c first).assign c second = field.assign c second := rfl

theorem CommissionRateInfoField.assign_assign (field : CommissionRateInfoField Double)
    (first second : Row) : (field.assign c first).assign c second = field.assign c second := rfl

theorem OrderField.assign_assign (field : OrderField Double) (first second : Row) :
    (field.assign c first).assign c second = field.assign c second := rfl

variable [Mul Double] [One Double] (select : Select)

/-- The model that was applied to the row before is overwritten with the same one. -/
theorem MarginRateInfoField.ofModel_assign_ofModel (modelid : ℤ)
    (field : MarginRateInfoField Double) (row : Row) :
    ((field.ofModel c select modelid).assign c row).ofModel c select modelid =
      (field.assign c row).ofModel c select modelid := by
  have hassign : (field.ofModel c select modelid).assign c row =
      { field.assign c row with marginRateModelID := modelid } := by
    unfold MarginRateInfoField.ofModel
    cases getMarginRateModelInfo c select modelid with
    | none => rfl
    | some model =>
      dsimp only
      split_ifs <;> rfl
  rw [hassign]
  rfl

variable [Add Double] [Zero Double]

theorem CommissionRateInfoField.ofModel_assign_ofModel (modelid : ℤ)
    (field : CommissionRateInfoField Double) (row : Row) :
    ((field.ofModel c select modelid).assign c row).ofModel c select modelid =
      (field.assign c row).ofModel c select modelid := by
  have hassign : (field.ofModel c select modelid).assign c row =
      { field.assign c row with commissionRateModelID := modelid } := by
    unfold CommissionRateInfoField.ofModel
    cases getCommissionRateModelInfo c select modelid with
    | none => rfl
    | some model =>
      dsimp only
      split_ifs <;> rfl
  rw [hassign]
  rfl

/-- The assignments of a getter for a row leave nothing of the row before. -/
theorem Getter.assign_assign {table : Table} (getter : Getter table) (rows : List Row)
    (field : table.Record Double) (first second : Row) :
    getter.assign c select rows (getter.assign c select rows field first) second =
      getter.assign c select rows field second := by
  cases getter
  case getMarginRateInfo modelid _ =>
    exact MarginRateInfoField.ofModel_assign_ofModel c select modelid _ second
  case getMarginRateInfosOfModel modelid =>
    exact MarginRateInfoField.ofModel_assign_ofModel c select modelid _ second
  case getCommissionRateInfo modelid _ =>
    exact CommissionRateInfoField.ofModel_assign_ofModel c select modelid _ second
  case getCommissionRateInfosOfModel modelid =>
    exact CommissionRateInfoField.ofModel_assign_ofModel c select modelid _ second
  all_goals rfl

variable {c select} {get : Get} {listing : Listing (get.Record Double)}

theorem Get.assign_assign (hlisting : get.listing c select = some listing) (rows : List Row)
    (field : get.Record Double) (first second : Row) :
    listing.assign rows (listing.assign rows field first) second =
      listing.assign rows field second := by
  cases get
  case record table getter =>
    simp only [Get.listing, Getter.listing] at hlisting
    split at hlisting
    · obtain rfl := Option.some.inj hlisting
      exact getter.assign_assign c select rows field first second
    · cases hlisting
  all_goals
    cases hlisting <;> rfl

/-- The assignments for a row do not look at the result set, except those of the getter of a
server's investors. -/
theorem Get.assign_eq_assign (hlisting : get.listing c select = some listing)
    (hother : ∀ serverID, get ≠ .record (.getInvestorInfosOfServer serverID))
    (rows other : List Row) : listing.assign rows = listing.assign other := by
  cases get
  case record table getter =>
    cases getter
    case getInvestorInfosOfServer serverID => exact absurd rfl (hother serverID)
    all_goals cases hlisting <;> rfl
  all_goals
    cases hlisting <;> rfl

end Forgetting

/-! ### A record for each row -/

namespace Listing

variable {Record : Type} {listing : Listing Record}

theorem fill_of_lt {rows : List Row} (hcount : rows.length < 2 ^ 31) (field : Record)
    (fieldsVec : List Record) : (listing.fill field fieldsVec (some rows)).2 =
      listing.kept fieldsVec ++ readRows (listing.assign rows) field rows := by
  simp only [fill, toInt32_of_lt hcount, Int.toNat_natCast, List.take_length]
  split_ifs with hnone
  · have hrows : rows = [] := List.eq_nil_of_length_eq_zero (by omega)
    rw [hrows, readRows, List.append_nil]
  · rfl

/-- No more records are appended than an `int` can count. -/
theorem length_fill_lt (field : Record) (rows : List Row) :
    (listing.fill field [] (some rows)).2.length < 2 ^ 31 := by
  have hkept : listing.kept [] = [] := ite_self []
  have hlt := toInt32_lt rows.length
  simp only [fill, hkept]
  split_ifs
  · exact Nat.two_pow_pos 31
  · rw [List.nil_append, length_readRows, List.length_take]
    omega

end Listing

section Coherence

variable {Double : Type} [Mul Double] [Add Double] [Zero Double] [One Double]
variable {c : Conversions Double} {select : Select} {get : Get}
variable {listing : Listing (get.Record Double)}

/-- The records that `Getter.get` finds are those that the loop appends. -/
theorem Getter.fill_of_get {table : Table} {getter : Getter table}
    {listing : Listing (table.Record Double)} (hlisting : getter.listing c select = some listing)
    {rows : List Row} (hrows : getter.resultSet c select = some rows)
    (hcount : rows.length < 2 ^ 31) (field : table.Record Double)
    (fieldsVec : List (table.Record Double)) : (listing.fill field fieldsVec (some rows)).2 =
      listing.kept fieldsVec ++ (getter.get c select field).getD [] := by
  rw [Listing.fill_of_lt hcount]
  unfold Getter.listing at hlisting
  unfold Getter.get
  cases hreading : getter.reading with
  | first => simp [hreading] at hlisting
  | last => simp [hreading] at hlisting
  | each acceptsNone =>
    obtain rfl : _ = listing := by simpa [hreading] using hlisting
    rw [hrows]
    cases acceptsNone <;> cases rows <;> simp [nonEmpty, readRows, Option.filter_some]

/-- Records that do not depend on the result set as a whole are coherent. -/
theorem Get.coherent_of_forall_eq (hlisting : get.listing c select = some listing)
    (field : get.Record Double) {count : ℕ} (hcount : count < 2 ^ 31)
    (read : Row → get.Record Double) (hread : ∀ rows : List Row, rows.length = count →
      ∀ row ∈ rows, listing.assign rows field row = read row) : listing.Coherent field count := by
  refine ⟨read, fun rows hlength fieldsVec ↦ ?_⟩
  rw [Listing.fill_of_lt (hlength ▸ hcount),
    readRows_eq_map (Get.assign_assign hlisting rows) field rows]
  exact congrArg _ (List.map_congr_left (hread rows hlength))

/-- The row of an investor who has nothing but a trade counter. -/
def investorRow (counter : Bytes) : Row := List.replicate 16 [] ++ [counter]

/-- The trade counters of a server's investors are those of the first row. -/
theorem not_coherent_of_server {serverID : Bytes} {count : ℕ}
    {listing : Listing (InvestorInfoField Double)}
    (hlisting : (Getter.getInvestorInfosOfServer serverID).listing c select = some listing)
    (field : InvestorInfoField Double) (hcount : count + 2 < 2 ^ 31) :
    ¬ listing.Coherent field (count + 2) := by
  rintro ⟨read, hread⟩
  obtain rfl := Option.some.inj hlisting
  have hassign : ∀ rows : List Row, rows.length = count + 2 → ∀ row ∈ rows,
      (Getter.getInvestorInfosOfServer serverID).assign c select rows field row = read row := by
    intro rows hlength
    have hfill := hread rows hlength []
    rw [Listing.fill_of_lt (hlength ▸ hcount), List.append_cancel_left_eq,
      readRows_eq_map (Getter.assign_assign c select _ rows)] at hfill
    exact List.map_inj_left.mp hfill
  let counter := c.ofInt (c.toInt [] + 1)
  have hplain := hassign (List.replicate (count + 2) []) List.length_replicate []
    (List.mem_replicate.mpr ⟨by omega, rfl⟩)
  have hmixed := hassign (investorRow counter :: List.replicate (count + 1) [])
    (by simp) [] (List.mem_cons_of_mem _ (List.mem_replicate.mpr ⟨by omega, rfl⟩))
  have hcounter : c.toInt counter = c.toInt [] :=
    congrArg InvestorInfoField.tradeCounterID (hmixed.trans hplain.symm)
  rw [c.toInt_ofInt] at hcounter
  omega

/-- Every operation that fills a vector appends, for each row of its result set, a record that is a
function of the row, as long as an `int` can count the rows; that of a server's investors does so
for a single row only. -/
theorem coherent_iff (hlisting : get.listing c select = some listing) (field : get.Record Double)
    (count : ℕ) : listing.Coherent field count ↔ count < 2 ^ 31 ∧
      ((∃ serverID, get = .record (.getInvestorInfosOfServer serverID)) → count ≤ 1) := by
  constructor
  · intro hcoherent
    have hcount : count < 2 ^ 31 := by
      obtain ⟨read, hread⟩ := hcoherent
      have hlt := listing.length_fill_lt field (List.replicate count [])
      rw [hread _ List.length_replicate [], List.length_append, List.length_map,
        List.length_replicate] at hlt
      omega
    refine ⟨hcount, ?_⟩
    rintro ⟨serverID, rfl⟩
    by_contra hmany
    obtain ⟨more, rfl⟩ := Nat.exists_eq_add_of_le' (by omega : 2 ≤ count)
    have hserver : (Getter.getInvestorInfosOfServer serverID).listing c select = some listing :=
      hlisting
    exact not_coherent_of_server hserver field hcount hcoherent
  · rintro ⟨hcount, hserver⟩
    by_cases hof : ∃ serverID, get = .record (.getInvestorInfosOfServer serverID)
    · refine Get.coherent_of_forall_eq hlisting field hcount
        (fun row ↦ listing.assign [row] field row) fun rows hlength row hrow ↦ ?_
      obtain rfl : rows = [row] := by
        obtain ⟨only, rfl⟩ := List.length_eq_one_iff.mp
          (le_antisymm (hlength ▸ hserver hof) (List.length_pos_of_mem hrow))
        rw [List.mem_singleton.mp hrow]
      rfl
    · rw [not_exists] at hof
      exact Get.coherent_of_forall_eq hlisting field hcount (listing.assign [] field)
        fun rows _ row _ ↦ by rw [Get.assign_eq_assign hlisting hof rows []]

/-- Two trades are read row by row. -/
theorem coherent_of_two_trades :
    (⟨false, true, fun _ _ row ↦ TradeField.ofRow decimal row⟩ : Listing (TradeField ℤ)).Coherent
      default 2 := by
  have hlisting : Get.allTrade.listing decimal (fun _ ↦ none) = some _ := rfl
  refine (coherent_iff hlisting default 2).mpr ⟨by decide, ?_⟩
  rintro ⟨serverID, hget⟩
  cases hget

/-- The loop of a server's investors. -/
def serverListing : Listing (InvestorInfoField ℤ) :=
  ⟨false, false, (Getter.getInvestorInfosOfServer (ascii "1")).assign decimal fun _ ↦ none⟩

/-- Two investors on the trade counters 1 and 2 are both listed with the counter 1, and with 3 when
the row of the first one has it. -/
theorem server_counters_mixed :
    (Get.record (.getInvestorInfosOfServer (ascii "1"))).listing decimal (fun _ ↦ none) =
      some serverListing ∧
    (serverListing.fill default [] (some [investorRow (ascii "1"), investorRow (ascii "2")])).2.map
      InvestorInfoField.tradeCounterID = [1, 1] ∧
    (serverListing.fill default [] (some [investorRow (ascii "3"), investorRow (ascii "2")])).2.map
      InvestorInfoField.tradeCounterID = [3, 3] ∧
    ¬ serverListing.Coherent default 2 := by
  refine ⟨rfl, ?_, ?_, ?_⟩
  · rw [Listing.fill_of_lt (by decide)]
    decide +kernel
  · rw [Listing.fill_of_lt (by decide)]
    decide +kernel
  · have hserver : (Getter.getInvestorInfosOfServer (ascii "1")).listing decimal (fun _ ↦ none) =
        some serverListing := rfl
    exact not_coherent_of_server hserver default (by decide)

end Coherence

end TradeServers.DbLayer
