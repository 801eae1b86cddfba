import TradeServers.DbLayer.Getters

/-!
# Records written and read back

`Table.values_mem_rows` says that the `Upd` operation of a table leaves the texts of its record in
a row of the table, and `Getter.get_of_selects` that a getter which selects this row makes its
assignments from it. `upd_get_round_trip` puts both together: what a getter hands back for a record
that was written.
-/

set_option autoImplicit false
set_option relaxedAutoImplicit false

namespace TradeServers.DbLayer

open SqlLiteral

variable {Double : Type} {table : Table} (c : Conversions Double)

/-! ### Writing -/

/-- The server does not generate the id of a record that has one. -/
theorem not_drawsID {field : table.Record Double} (hid : table.HasID field) :
    ¬ DrawsID table.name (table.values c field) := by
  rintro ⟨htable, htext⟩
  have hzero {id : ℤ} (hpos : 0 < id) : c.ofInt id ≠ ascii "0" := by
    intro heq
    have hid : c.toInt (c.ofInt id) = c.toInt (c.ofInt 0) := by rw [heq, c.ofInt_zero]
    rw [c.toInt_ofInt, c.toInt_ofInt] at hid
    omega
  cases table
  case investor => exact hzero hid htext
  case cashFlow => exact hzero hid htext
  case cloudOrder => exact hzero hid (generatedID_of_pos c hid ▸ htext)
  case tradeCounter => exact hzero hid (generatedID_of_pos c hid ▸ htext)
  all_goals exact absurd htable (by decide +kernel)

/-- The `Upd` operation of a table leaves the texts of its record in a row of the table. -/
theorem Table.values_mem_rows {σ : Type} (server : TableServer σ) (db : σ)
    {field : table.Record Double} (hid : table.HasID field)
    (hsafe : ∀ value ∈ table.values c field, TextSafe value) :
    table.values c field ∈ server.rows (server.exec db (table.upd c field)) table.name := by
  apply server.replace _ _ _ _ (not_drawsID c hid)
  rw [Table.upd_eq]
  exact lex_replaceText table.unquoted_name (table.values_ne_nil c field)
    fun value hvalue ↦ (hsafe value hvalue).clean

/-! ### Reading -/

/-- A getter of this kind fills one record only. -/
def Reading.FillsOne : Reading → Prop
  | first | last => True
  | each _ => False

/-- The result set of a getter contains the row, and no other when the getter fills one record. -/
def Getter.Selects (getter : Getter table) (select : Select) (row : Row) : Prop :=
  ∃ sql rows, getter.sql c select = some sql ∧ select (cString sql) = some rows ∧ row ∈ rows ∧
    (getter.reading.FillsOne → ∀ other ∈ rows, other = row)

variable {c} in
/-- A text-safe row passes through `CRecordSet` unchanged. -/
theorem Getter.resultSet_of_selects {getter : Getter table} {select : Select} {row : Row}
    (hselects : getter.Selects c select row) (hsafe : ∀ value ∈ row, TextSafe value) :
    ∃ rows, getter.resultSet c select = some rows ∧ row ∈ rows ∧
      (getter.reading.FillsOne → ∀ other ∈ rows, other = row) := by
  obtain ⟨sql, rows, hsql, hrows, hmem, hone⟩ := hselects
  have hrow : row.map cString = row := by
    conv_rhs => rw [← List.map_id row]
    exact List.map_congr_left fun value hvalue ↦ (hsafe value hvalue).cString_eq
  refine ⟨rows.map fun row ↦ row.map cString, ?_, ?_, ?_⟩
  · rw [resultSet, hsql, Option.bind_some, executeSQL, hrows, Option.map_some]
  · exact List.mem_map.mpr ⟨row, hmem, hrow⟩
  · intro hfills other hother
    obtain ⟨raw, hraw, rfl⟩ := List.mem_map.mp hother
    rw [hone hfills raw hraw, hrow]

/-- `UpdInvestorInfo` does not change its record when the account selects the record's row. -/
theorem rereadInvestorInfo_of_selects {select : Select} {field : InvestorInfoField Double}
    (hselects : (Getter.getInvestorInfo field.brokerID field.investorID).Selects c select
      (field.values c)) (hsafe : ∀ value ∈ field.values c, TextSafe value) :
    rereadInvestorInfo c select field = field := by
  obtain ⟨rows, hrows, hmem, hone⟩ := Getter.resultSet_of_selects hselects hsafe
  unfold rereadInvestorInfo
  show (readFirst _ field (Getter.resultSet c select _)).getD field = field
  rw [hrows, readFirst_of_forall_eq _ hmem (hone trivial), Option.getD_some,
    InvestorInfoField.ofRow_values]

variable [Mul Double] [Add Double] [Zero Double] [One Double]

/-- A getter that selects a row hands a record back that its assignments made from the row. -/
theorem Getter.get_of_selects {getter : Getter table} {select : Select} {row : Row}
    (hselects : getter.Selects c select row) (hsafe : ∀ value ∈ row, TextSafe value)
    (field : table.Record Double) :
    ∃ records, getter.get c select field = some records ∧
      ∃ rows before, getter.assign c select rows before row ∈ records := by
  obtain ⟨rows, hrows, hmem, hone⟩ := getter.resultSet_of_selects hselects hsafe
  unfold Getter.get
  rw [hrows]
  cases hreading : getter.reading with
  | first =>
    have hread := readFirst_of_forall_eq (getter.assign c select rows) hmem
      (hone (by rw [hreading]; trivial)) field
    refine ⟨[getter.assign c select rows field row], ?_, rows, field, List.mem_singleton_self _⟩
    simp only [Option.getD_some, hread, Option.map_some]
  | last =>
    obtain ⟨before, hread⟩ := readLast_of_forall_eq (getter.assign c select rows) hmem
      (hone (by rw [hreading]; trivial)) field
    refine ⟨[getter.assign c select rows before row], ?_, rows, before,
      List.mem_singleton_self _⟩
    simp only [Option.getD_some, hread, Option.map_some]
  | each acceptsNone =>
    obtain ⟨before, hread⟩ := mem_readRows (getter.assign c select rows) hmem field
    refine ⟨readRows (getter.assign c select rows) field rows, ?_, rows, before, hread⟩
    simp only [Option.getD_some, nonEmpty_of_mem hmem, ite_self, Option.map_some]

/-! ### The round trip -/

/-- How the record that a getter reads agrees with the record that was stored. It is equal to it, up
to the following. The rates of a model are those stored, as the model has them. The model is no
column of the tables of rates. -/
def Getter.Agrees (select : Select) :
    Getter table → table.Record Double → table.Record Double → Prop
  | getInvestorInfosOfServer _, stored, read =>
    { read with tradeCounterID := InvestorInfoField.tradeCounterID stored } = stored
  | getMarginRateInfo modelid _, stored, read | getMarginRateInfosOfModel modelid, stored, read =>
    read = MarginRateInfoField.ofModel c select modelid stored
  | getMarginRateInfos, stored, read =>
    { read with marginRateModelID := MarginRateInfoField.marginRateModelID stored } = stored
  | getCommissionRateInfo modelid _, stored, read
  | getCommissionRateInfosOfModel modelid, stored, read =>
    read = CommissionRateInfoField.ofModel c select modelid stored
  | getCommissionRateInfos, stored, read =>
    { read with
      commissionRateModelID := CommissionRateInfoField.commissionRateModelID stored } = stored
  | getOrder _ _ _, stored, read | getAllOrderOfDay _, stored, read
  | getAllOrderOfInstrument _ _, stored, read | getAllOrder, stored, read =>
    OrderField.AgreesUpToLegs stored read
  | getTradeRiskTmpl _ _ _, stored, read =>
    { read with tradeRiskTmplTxt := TradeRiskTmplField.tradeRiskTmplTxt stored } = stored
  | _, stored, read => read = stored

/-- The assignments of a getter undo the `Upd` operation of its table. -/
theorem Getter.agrees_assign (getter : Getter table) (select : Select) (rows : List Row)
    {stored : table.Record Double} (hid : table.HasID stored) (before : table.Record Double) :
    getter.Agrees c select stored
      (getter.assign c select rows before (table.values c stored)) := by
  cases getter
  case getInvestorInfo | getInvestorInfoByID | getInvestorInfos =>
    exact InvestorInfoField.ofRow_values c stored
  case getInvestorInfosOfServer =>
    exact congrArg (fun read ↦ { read with tradeCounterID := stored.tradeCounterID })
      (InvestorInfoField.ofRow_values c stored)
  case getProductInfo | getProductInfos => exact ProductInfoField.ofRow_values c stored
  case getInstrumentInfo | getInstrumentInfos => exact InstrumentInfoField.ofRow_values c stored
  case getMarginRateInfo modelid _ =>
    exact MarginRateInfoField.ofModel_assign_values c select modelid before stored
  case getMarginRateInfosOfModel modelid =>
    exact MarginRateInfoField.ofModel_assign_values c select modelid before stored
  case getMarginRateInfos =>
    exact congrArg (fun read ↦ { read with marginRateModelID := stored.marginRateModelID })
      (MarginRateInfoField.assign_values c before stored)
  case getCommissionRateInfo modelid _ =>
    exact CommissionRateInfoField.ofModel_assign_values c select modelid before stored
  case getCommissionRateInfosOfModel modelid =>
    exact CommissionRateInfoField.ofModel_assign_values c select modelid before stored
  case getCommissionRateInfos =>
    exact congrArg (fun read ↦ { read with commissionRateModelID := stored.commissionRateModelID })
      (CommissionRateInfoField.assign_values c before stored)
  case getOrder | getAllOrderOfDay | getAllOrderOfInstrument | getAllOrder =>
    exact OrderField.assign_values c before stored
  case getTradingAccount => exact TradingAccountField.ofRow_values c stored
  case getPositions | getAllPositions | getPosition | getPositionsOfInstrument =>
    exact InvestorPositionField.ofRow_values c stored
  case getCloudOrder | getAllCloudOrder | getInvalidCloudOrder =>
    exact CloudOrderField.ofRow_values c hid
  case getUnHandleCashFlow | getCashFlow | getAllCashFlow =>
    exact CashFlowField.ofRow_values c stored
  case getTradeRiskTmpl => exact TradeRiskTmplField.ofRow_values c stored
  case getTradeCounter => exact TradeCounterField.ofRow_values c hid
  case getLastTick | getLastTicks => exact DepthMarketDataField.ofRow_values c stored

/-- For every record of every table, the `Upd` operation leaves a row with the texts of the record,
and every getter of the table that selects this row hands back a record that agrees with it. -/
theorem upd_get_round_trip {σ : Type} (server : TableServer σ) (db : σ) (table : Table)
    (stored : table.Record Double) (hid : table.HasID stored)
    (hsafe : ∀ value ∈ table.values c stored, TextSafe value) :
    table.values c stored ∈ server.rows (server.exec db (table.upd c stored)) table.name ∧
      ∀ (getter : Getter table) (select : Select) (field : table.Record Double),
        getter.Selects c select (table.values c stored) →
          ∃ records, getter.get c select field = some records ∧
            ∃ read ∈ records, getter.Agrees c select stored read := by
  refine ⟨Table.values_mem_rows c server db hid hsafe, fun getter select field hselects ↦ ?_⟩
  obtain ⟨records, hget, rows, before, hmem⟩ := getter.get_of_selects c hselects hsafe field
  exact ⟨records, hget, _, hmem, getter.agrees_assign c select rows hid before⟩

section Examples

/-- A trade counter with its id. -/
def mainCounter : TradeCounterField where
  tradeCounterID := 7
  brokerID := ascii "9999"
  name := ascii "main"
  protocol := ascii "tcp"
  frontAddr := ascii "127.0.0.1:80"
  appID := ascii "app"
  relayAppID := []
  authCode := []
  isDefault := 1

/-- A trade counter is written to an empty table and read back. -/
theorem upd_get_mainCounter :
    Table.values decimal .tradeCounter mainCounter ∈
        (TableServer.ofTables fun _ first second ↦ first.column 0 == second.column 0).exec
          (fun _ ↦ []) (updTradeCounter decimal mainCounter) tradeCounterTable ∧
      ∃ records, Getter.getTradeCounter.get decimal
          (fun _ ↦ some [Table.values decimal .tradeCounter mainCounter]) default =
            some records ∧ mainCounter ∈ records := by
  have hsafe : ∀ value ∈ Table.values decimal .tradeCounter mainCounter, TextSafe value := by
    decide +kernel
  have hround := upd_get_round_trip decimal
    (TableServer.ofTables fun _ first second ↦ first.column 0 == second.column 0) (fun _ ↦ [])
    .tradeCounter mainCounter (by decide : (0 : ℤ) < 7) hsafe
  obtain ⟨records, hget, read, hmem, rfl⟩ := hround.2 .getTradeCounter
    (fun _ ↦ some [Table.values decimal .tradeCounter mainCounter]) default
    ⟨_, _, rfl, rfl, List.mem_singleton_self _, nofun⟩
  exact ⟨hround.1, records, hget, hmem⟩

end Examples

/-! ### Fields that are not read back -/

/-- A getter reads a field back: whatever record was stored, it hands back a record with the same
value in this field. -/
def Getter.ReadsBack {α : Type} (getter : Getter table) (field : table.Record Double → α) : Prop :=
  ∀ stored, table.HasID stored → (∀ value ∈ table.values c stored, TextSafe value) →
    ∀ select before, getter.Selects c select (table.values c stored) →
      ∃ records, getter.get c select before = some records ∧
        ∃ read ∈ records, field read = field stored

/-- One record that comes back with other values only. -/
theorem Getter.not_readsBack {α : Type} {getter : Getter table} {field : table.Record Double → α}
    (stored : table.Record Double) (hid : table.HasID stored)
    (hsafe : ∀ value ∈ table.values c stored, TextSafe value) (select : Select)
    (before : table.Record Double) (hselects : getter.Selects c select (table.values c stored))
    (values : List α) (hget : (getter.get c select before).map (List.map field) = some values)
    (hvalues : field stored ∉ values) : ¬ getter.ReadsBack c field := by
  intro hback
  obtain ⟨records, hrecords, read, hmem, hfield⟩ := hback stored hid hsafe select before hselects
  rw [hrecords, Option.map_some, Option.some.injEq] at hget
  exact hvalues (hget ▸ hfield ▸ List.mem_map_of_mem hmem)

section Examples

/-- A margin rate of two. -/
def margin : MarginRateInfoField ℤ :=
  { (default : MarginRateInfoField ℤ) with longMarginRatioByMoney := 2 }

/-- The margin rate, and a model with the factor three. -/
def marginTables : Select := fun sql ↦
  if sql = selectText marginRateModelTable [equals "MarginRateModelID" (ascii "1")] then
    some [[ascii "1", [], [], [], [], ascii "0", ascii "3"]]
  else some [Table.values decimal .marginRate margin]

/-- A commission of two by volume. -/
def commission : CommissionRateInfoField ℤ :=
  { (default : CommissionRateInfoField ℤ) with openRatioByVolume := 2 }

/-- The commission, and a model that adds five by volume. -/
def commissionTables : Select := fun sql ↦
  if sql = selectText commissionRateModelTable [equals "CommissionRateModelID" (ascii "1")] then
    some [[ascii "1", [], [], [], [], ascii "0", ascii "1", ascii "5"]]
  else some [Table.values decimal .commissionRate commission]

/-- An order with two legs. -/
def twoLegs : OrderField ℤ :=
  { (default : OrderField ℤ) with
    orderPriceType := 50, direction := 48, combOffsetFlag := ascii "01",
    combHedgeFlag := ascii "11", timeCondition := 51, volumeCondition := 49,
    contingentCondition := 49, forceCloseReason := 48, orderSubmitStatus := 48,
    orderSource := 48, orderStatus := 51, orderType := 48 }

/-- An investor on a trade counter. -/
def investorOn (counter : ℤ) : InvestorInfoField ℤ :=
  { (default : InvestorInfoField ℤ) with id := counter, tradeCounterID := counter }

/-- Two investors on different counters, both in the range of the server `1`. -/
def investorTables : Select := fun sql ↦
  if sql = selectText investorServerPortConfTable [equals "id" (ascii "1")] then
    some [[ascii "1", ascii "1", ascii "2"]]
  else some [Table.values decimal .investor (investorOn 1),
    Table.values decimal .investor (investorOn 2)]

/-- A risk template with a text. -/
def riskTmpl : TradeRiskTmplField where
  brokerID := ascii "9999"
  investorID := ascii "1"
  clientType := 1
  time := ascii "10:00:00"
  tradeRiskTmplTxt := ascii "limit"

/-- A settlement sheet with a text. -/
def sheet : SettlementSheetField :=
  { (default : SettlementSheetField) with
    brokerID := ascii "9999", chineseHeaderString := ascii "sheet" }

/-- What does not come back from every getter: rates of a model, the legs of an order, the trade
counter of a server's investors, the text of a risk template, and the text of a settlement sheet. -/
theorem not_all_read_back :
    ¬ (Getter.getMarginRateInfosOfModel 1).ReadsBack decimal
        MarginRateInfoField.longMarginRatioByMoney ∧
      ¬ (Getter.getCommissionRateInfosOfModel 1).ReadsBack decimal
        CommissionRateInfoField.openRatioByVolume ∧
      ¬ Getter.getAllOrder.ReadsBack decimal (fun order ↦ cString order.combOffsetFlag) ∧
      ¬ Getter.getAllOrder.ReadsBack decimal (fun order ↦ cString order.combHedgeFlag) ∧
      ¬ (Getter.getInvestorInfosOfServer (ascii "1")).ReadsBack decimal
        InvestorInfoField.tradeCounterID ∧
      ¬ (Getter.getTradeRiskTmpl (ascii "9999") (ascii "1") 1).ReadsBack decimal
        TradeRiskTmplField.tradeRiskTmplTxt ∧
      (∀ value ∈ Table.values decimal .settlementSheet sheet, TextSafe value) ∧
      getSettlementSheet (fun _ ↦ some [Table.values decimal .settlementSheet sheet])
          sheet.brokerID sheet.investorID sheet.settlementDate = (1, some sheet.brokerID) ∧
      sheet.brokerID ≠ sheet.strSettlementSheet := by
  refine ⟨?_, ?_, ?_, ?_, ?_, ?_, ?_, ?_, ?_⟩
  · exact Getter.not_readsBack decimal margin trivial (by decide +kernel) marginTables default
      ⟨_, _, rfl, by decide +kernel, List.mem_singleton_self _, nofun⟩ [6] (by decide +kernel)
      (by decide +kernel)
  · exact Getter.not_readsBack decimal commission trivial (by decide +kernel) commissionTables
      default ⟨_, _, rfl, by decide +kernel, List.mem_singleton_self _, nofun⟩ [7]
      (by decide +kernel) (by decide +kernel)
  · exact Getter.not_readsBack decimal twoLegs trivial (by decide +kernel)
      (fun _ ↦ some [Table.values decimal .order twoLegs]) default
      ⟨_, _, rfl, rfl, List.mem_singleton_self _, nofun⟩ [ascii "0"] (by decide +kernel)
      (by decide +kernel)
  · exact Getter.not_readsBack decimal twoLegs trivial (by decide +kernel)
      (fun _ ↦ some [Table.values decimal .order twoLegs]) default
      ⟨_, _, rfl, rfl, List.mem_singleton_self _, nofun⟩ [ascii "1"] (by decide +kernel)
      (by decide +kernel)
  · exact Getter.not_readsBack decimal (investorOn 2) (by decide : (0 : ℤ) < 2) (by decide +kernel)
      investorTables default
      ⟨selectText investorTable [ascii "id BETWEEN '1' AND '2'"],
        [Table.values decimal .investor (investorOn 1),
          Table.values decimal .investor (investorOn 2)],
        by decide +kernel, by decide +kernel, List.mem_cons_of_mem _ List.mem_cons_self, nofun⟩
      [1, 1] (by decide +kernel) (by decide +kernel)
  · exact Getter.not_readsBack decimal riskTmpl trivial (by decide +kernel)
      (fun _ ↦ some [Table.values decimal .tradeRiskTmpl riskTmpl]) default
      ⟨_, _, rfl, rfl, List.mem_singleton_self _, fun _ _ hmem ↦ List.mem_singleton.mp hmem⟩ [[]]
      (by decide +kernel) (by decide +kernel)
  · decide +kernel
  · decide +kernel
  · decide +kernel

end Examples

end TradeServers.DbLayer
