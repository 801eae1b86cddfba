import TradeServers.DbLayer.Listings
import TradeServers.DbLayer.Fidelity

/-!
# The rates of one instrument and the rates of all

`GetMarginRateInfo` and `GetCommissionRateInfo` exist for one instrument and for all of them, and
adjust the rates to a model in either case. The adjustments are written out for each of them, and
`rates_agree_iff` compares what they give for an instrument: the arithmetic is the same, but the
instrument is pasted into the condition of the first kind as it is.
-/

set_option autoImplicit false
set_option relaxedAutoImplicit false

namespace TradeServers.DbLayer

open SqlLiteral

/-! ### The four getters -/

section Getters

variable {Double : Type} [Mul Double] [Add Double] [Zero Double] [One Double]
variable (c : Conversions Double) (select : Select)

/-- What `ExecuteSQL` returns for a result set, or for a query that fails. -/
def recordCount (answer : Option (List Row)) : ℤ := answer.elim (-1) fun rows ↦ toInt32 rows.length

/-- The rates of one instrument: the first row that is found is read. -/
def readOne {Record : Type} (table instrumentID : Bytes) (read : Row → Record) : Option Record :=
  let answer := executeSQL select (selectText table [equals "InstrumentID" instrumentID])
  if recordCount answer ≤ 0 then none else some (read ((answer.getD []).headD []))

/-- The rates of all instruments: every row is read into one record. -/
def readAll {Record : Type} (table : Bytes) (assign : Record → Row → Record) (field : Record) :
    Option (List Record) :=
  let answer := executeSQL select (selectText table [])
  if recordCount answer ≤ 0 then none
  else some (readRows assign field ((answer.getD []).take (recordCount answer).toNat))

/-- `GetMarginRateInfo` of one instrument: what it leaves in `field` when it succeeds. -/
def getMarginRateInfo (field : MarginRateInfoField Double) (modelid : ℤ) (instrumentID : Bytes) :
    Option (MarginRateInfoField Double) :=
  readOne select marginRateTable instrumentID fun row ↦
    let field :=
      { field with
        marginRateModelID := modelid
        instrumentID := row.column 0
        investorRange := row.column 1
        hedgeFlag := row.column 2
        longMarginRatioByMoney := c.toDouble (row.column 3)
        longMarginRatioByVolume := c.toDouble (row.column 4)
        shortMarginRatioByMoney := c.toDouble (row.column 5)
        shortMarginRatioByVolume := c.toDouble (row.column 6)
        isRelative := c.toInt (row.column 7) }
    match getMarginRateModelInfo c select modelid with
    | some model =>
      if c.greater model.baseOnBasics 1 then
        { field with
          longMarginRatioByMoney := field.longMarginRatioByMoney * model.baseOnBasics
          longMarginRatioByVolume := field.longMarginRatioByVolume * model.baseOnBasics
          shortMarginRatioByMoney := field.shortMarginRatioByMoney * model.baseOnBasics
          shortMarginRatioByVolume := field.shortMarginRatioByVolume * model.baseOnBasics }
      else field
    | none => field

/-- `GetMarginRateInfo` of all instruments: the records it appends when it succeeds. `field` and
`model` are its local records; the second is only looked at when a model was found. -/
def getMarginRateInfosOfModel (field : MarginRateInfoField Double)
    (model : MarginRateModelInfoField Double) (modelid : ℤ) :
    Option (List (MarginRateInfoField Double)) :=
  let found := getMarginRateModelInfo c select modelid
  let ret := found.isSome
  let model := found.getD model
  readAll select marginRateTable (fun field row ↦
    let field :=
      { field with
        marginRateModelID := modelid
        instrumentID := row.column 0
        investorRange := row.column 1
        hedgeFlag := row.column 2
        longMarginRatioByMoney := c.toDouble (row.column 3)
        longMarginRatioByVolume := c.toDouble (row.column 4)
        shortMarginRatioByMoney := c.toDouble (row.column 5)
        shortMarginRatioByVolume := c.toDouble (row.column 6)
        isRelative := c.toInt (row.column 7) }
    if ret && c.greater model.baseOnBasics 1 then
      { field with
        longMarginRatioByMoney := field.longMarginRatioByMoney * model.baseOnBasics
        longMarginRatioByVolume := field.longMarginRatioByVolume * model.baseOnBasics
        shortMarginRatioByMoney := field.shortMarginRatioByMoney * model.baseOnBasics
        shortMarginRatioByVolume := field.shortMarginRatioByVolume * model.baseOnBasics }
    else field) field

/-- `GetCommissionRateInfo` of one instrument: what it leaves in `field` when it succeeds. -/
def getCommissionRateInfo (field : CommissionRateInfoField Double) (modelid : ℤ)
    (instrumentID : Bytes) : Option (CommissionRateInfoField Double) :=
  readOne select commissionRateTable instrumentID fun row ↦
    let field :=
      { field with
        commissionRateModelID := modelid
        instrumentID := row.column 0
        investorRange := row.column 1
        openRatioByMoney := c.toDouble (row.column 2)
        openRatioByVolume := c.toDouble (row.column 3)
        closeRatioByMoney := c.toDouble (row.column 4)
        closeRatioByVolume := c.toDouble (row.column 5)
        closeTodayRatioByMoney := c.toDouble (row.column 6)
        closeTodayRatioByVolume := c.toDouble (row.column 7) }
    match getCommissionRateModelInfo c select modelid with
    | some model =>
      let field :=
        if c.greater model.baseOnBasicsByMoney 1 then
          { field with
            openRatioByMoney := field.openRatioByMoney * model.baseOnBasicsByMoney
            openRatioByVolume := field.openRatioByVolume * model.baseOnBasicsByMoney
            closeRatioByMoney := field.closeRatioByMoney * model.baseOnBasicsByMoney
            closeRatioByVolume := field.closeRatioByVolume * model.baseOnBasicsByMoney
            closeTodayRatioByMoney := field.closeTodayRatioByMoney * model.baseOnBasicsByMoney
            closeTodayRatioByVolume := field.closeTodayRatioByVolume * model.baseOnBasicsByMoney }
        else field
      if c.greater model.baseOnBasicsByVolume 0 then
        { field with
          openRatioByVolume := field.openRatioByVolume + model.baseOnBasicsByVolume
          closeRatioByVolume := field.closeRatioByVolume + model.baseOnBasicsByVolume
          closeTodayRatioByVolume := field.closeTodayRatioByVolume + model.baseOnBasicsByVolume }
      else field
    | none => field

/-- `GetCommissionRateInfo` of all instruments: the records it appends when it succeeds. -/
def getCommissionRateInfosOfModel (field : CommissionRateInfoField Double)
    (model : CommissionRateModelInfoField Double) (modelid : ℤ) :
    Option (List (CommissionRateInfoField Double)) :=
  let found := getCommissionRateModelInfo c select modelid
  let ret := found.isSome
  let model := found.getD model
  readAll select commissionRateTable (fun field row ↦
    let field :=
      { field with
        commissionRateModelID := modelid
        instrumentID := row.column 0
        investorRange := row.column 1
        openRatioByMoney := c.toDouble (row.column 2)
        openRatioByVolume := c.toDouble (row.column 3)
        closeRatioByMoney := c.toDouble (row.column 4)
        closeRatioByVolume := c.toDouble (row.column 5)
        closeTodayRatioByMoney := c.toDouble (row.column 6)
        closeTodayRatioByVolume := c.toDouble (row.column 7) }
    let field :=
      if ret && c.greater model.baseOnBasicsByMoney 1 then
        { field with
          openRatioByMoney := field.openRatioByMoney * model.baseOnBasicsByMoney
          openRatioByVolume := field.openRatioByVolume * model.baseOnBasicsByMoney
          closeRatioByMoney := field.closeRatioByMoney * model.baseOnBasicsByMoney
          closeRatioByVolume := field.closeRatioByVolume * model.baseOnBasicsByMoney
          closeTodayRatioByMoney := field.closeTodayRatioByMoney * model.baseOnBasicsByMoney
          closeTodayRatioByVolume := field.closeTodayRatioByVolume * model.baseOnBasicsByMoney }
      else field
    if ret && c.greater model.baseOnBasicsByVolume 0 then
      { field with
        openRatioByVolume := field.openRatioByVolume + model.baseOnBasicsByVolume
        closeRatioByVolume := field.closeRatioByVolume + model.baseOnBasicsByVolume
        closeTodayRatioByVolume := field.closeTodayRatioByVolume + model.baseOnBasicsByVolume }
    else field) field

end Getters

/-! ### The arithmetic is the same -/

section Arithmetic

variable {Double : Type} [Mul Double] [One Double]
variable (c : Conversions Double) (select : Select) (modelid : ℤ)

/-- The margin rates of a row with their model. -/
def MarginRateInfoField.adjusted (field : MarginRateInfoField Double) (row : Row) :
    MarginRateInfoField Double :=
  (field.assign c row).ofModel c select modelid

/-- Nothing of a record stays when it is read from a row. -/
theorem MarginRateInfoField.adjusted_eq (field other : MarginRateInfoField Double) :
    field.adjusted c select modelid = other.adjusted c select modelid := rfl

theorem MarginRateInfoField.instrumentID_adjusted (field : MarginRateInfoField Double) (row : Row) :
    (field.adjusted c select modelid row).instrumentID = row.column 0 := by
  unfold MarginRateInfoField.adjusted MarginRateInfoField.ofModel
  cases getMarginRateModelInfo c select modelid with
  | none => rfl
  | some model =>
    dsimp only
    split_ifs <;> rfl

theorem getMarginRateInfo_eq (field : MarginRateInfoField Double) (instrumentID : Bytes) :
    getMarginRateInfo c select field modelid instrumentID =
      readOne select marginRateTable instrumentID (field.adjusted c select modelid) := by
  unfold getMarginRateInfo
  congr 1
  funext row
  unfold MarginRateInfoField.adjusted MarginRateInfoField.ofModel
  cases getMarginRateModelInfo c select modelid <;> rfl

theorem getMarginRateInfosOfModel_eq (field : MarginRateInfoField Double)
    (model : MarginRateModelInfoField Double) :
    getMarginRateInfosOfModel c select field model modelid =
      readAll select marginRateTable (fun field ↦ field.adjusted c select modelid) field := by
  unfold getMarginRateInfosOfModel
  dsimp only
  congr 1
  funext field row
  unfold MarginRateInfoField.adjusted MarginRateInfoField.ofModel
  cases getMarginRateModelInfo c select modelid <;> rfl

variable [Add Double] [Zero Double]

/-- The commission rates of a row with their model. -/
def CommissionRateInfoField.adjusted (field : CommissionRateInfoField Double) (row : Row) :
    CommissionRateInfoField Double :=
  (field.assign c row).ofModel c select modelid

theorem CommissionRateInfoField.adjusted_eq (field other : CommissionRateInfoField Double) :
    field.adjusted c select modelid = other.adjusted c select modelid := rfl

theorem CommissionRateInfoField.instrumentID_adjusted (field : CommissionRateInfoField Double)
    (row : Row) : (field.adjusted c select modelid row).instrumentID = row.column 0 := by
  unfold CommissionRateInfoField.adjusted CommissionRateInfoField.ofModel
  cases getCommissionRateModelInfo c select modelid with
  | none => rfl
  | some model =>
    dsimp only
    split_ifs <;> rfl

theorem getCommissionRateInfo_eq (field : CommissionRateInfoField Double) (instrumentID : Bytes) :
    getCommissionRateInfo c select field modelid instrumentID =
      readOne select commissionRateTable instrumentID (field.adjusted c select modelid) := by
  unfold getCommissionRateInfo
  congr 1
  funext row
  unfold CommissionRateInfoField.adjusted CommissionRateInfoField.ofModel
  cases getCommissionRateModelInfo c select modelid <;> rfl

theorem getCommissionRateInfosOfModel_eq (field : CommissionRateInfoField Double)
    (model : CommissionRateModelInfoField Double) :
    getCommissionRateInfosOfModel c select field model modelid =
      readAll select commissionRateTable (fun field ↦ field.adjusted c select modelid) field := by
  unfold getCommissionRateInfosOfModel
  dsimp only
  congr 1
  funext field row
  unfold CommissionRateInfoField.adjusted CommissionRateInfoField.ofModel
  cases getCommissionRateModelInfo c select modelid <;> rfl

end Arithmetic

/-! ### Servers with a table of rates -/

/-- How a server compares the instrument of a row with a literal. -/
structure Collation where
  same : Bytes → Bytes → Bool
  refl : ∀ id, same id id = true

/-- The comparison of the bytes. -/
def Collation.binary : Collation where
  same := fun cell id ↦ cell = id
  refl := fun _ ↦ decide_eq_true rfl

/-- The rows of an instrument. -/
def Collation.rowsOf (collation : Collation) (rows : List Row) (id : Bytes) : List Row :=
  rows.filter fun row ↦ collation.same (row.column 0) id

/-- The position of the first row of an instrument. -/
def Collation.position (collation : Collation) (rows : List Row) (id : Bytes) : ℕ :=
  rows.findIdx fun row ↦ collation.same (row.column 0) id

/-- The server answers with the rows of the table, or with those of the instrument that it reads in
the condition, in the same order. -/
structure Collation.Serves (collation : Collation) (select : Select) (table : TableName)
    (rows : List Row) : Prop where
  all : ∀ text, lex text = some (Query.select table []).statement → select text = some rows
  one : ∀ text id, lex text = some (Query.select table [.is .instrumentID id]).statement →
    select text = some (collation.rowsOf rows id)

/-- The rows of an instrument can be counted by an `int`, and so can the rows up to its first one:
the code goes through as many rows as the `int` says. -/
structure Collation.Counted (collation : Collation) (rows : List Row) (id : Bytes) : Prop where
  found : 0 < toInt32 (collation.rowsOf rows id).length
  listed : (collation.position rows id : ℤ) < toInt32 rows.length

/-- The record of one instrument is the entry of its first row in the list of all. -/
def SameEntry {Record : Type} (one : Option Record) (all : Option (List Record))
    (position : ℕ) : Prop :=
  ∃ record records, one = some record ∧ all = some records ∧ records[position]? = some record

/-- A server that has the table and knows no other statement. -/
def Collation.server (collation : Collation) (table : TableName) (rows : List Row) : Select :=
    fun text ↦
  if lex text = some (Query.select table []).statement then some rows
  else (lex text).bind fun statement ↦
    let id := statement.literals.headD []
    if statement = (Query.select table [.is .instrumentID id]).statement then
      some (collation.rowsOf rows id)
    else none

section Servers

variable {collation : Collation} {select : Select} {table : TableName} {rows : List Row}
variable {id : Bytes}

theorem statement_one_ne_all (id : Bytes) :
    (Query.select table [.is .instrumentID id]).statement ≠ (Query.select table []).statement := by
  intro heq
  have htail := congrArg (fun statement ↦ statement.tail.length) heq
  exact absurd htail (by decide : (1 : ℕ) ≠ 0)

theorem Collation.serves_server (collation : Collation) (table : TableName) (rows : List Row) :
    collation.Serves (collation.server table rows) table rows := by
  refine ⟨fun text hlex ↦ if_pos hlex, fun text id hlex ↦ ?_⟩
  have hne : lex text ≠ some (Query.select table []).statement := by
    rw [hlex]
    exact fun heq ↦ statement_one_ne_all id (Option.some.inj heq)
  have hliterals :
      (Query.select table [.is .instrumentID id]).statement.literals.headD [] = id := by
    rw [Query.literals_statement]
    rfl
  unfold server
  rw [if_neg hne, hlex, Option.bind_some]
  dsimp only
  rw [hliterals, if_pos rfl]

/-- An instrument of the table has a first row. -/
theorem Collation.exists_same (collation : Collation) (hpresent : ∃ row ∈ rows, row.column 0 = id) :
    ∃ row ∈ rows, collation.same (row.column 0) id = true := by
  obtain ⟨row, hrow, rfl⟩ := hpresent
  exact ⟨row, hrow, collation.refl _⟩

theorem Collation.position_lt (collation : Collation)
    (hpresent : ∃ row ∈ rows, row.column 0 = id) : collation.position rows id < rows.length :=
  List.findIdx_lt_length_of_exists (collation.exists_same hpresent)

theorem Collation.binary_same_iff {cell : Bytes} :
    Collation.binary.same cell id = true ↔ cell = id :=
  decide_eq_true_iff

theorem Collation.same_of_mem {row : Row} (hrow : row ∈ collation.rowsOf rows id) :
    collation.same (row.column 0) id = true :=
  (List.mem_filter.mp hrow).2

theorem Collation.same_of_position {row : Row}
    (hrow : rows[collation.position rows id]? = some row) :
    collation.same (row.column 0) id = true := by
  unfold Collation.position at hrow
  have hsame := List.findIdx_of_getElem?_eq_some hrow
  exact hsame

/-- The first row of an instrument is the first of its rows. -/
theorem Collation.head_rowsOf (collation : Collation) (rows : List Row) (id : Bytes) :
    (collation.rowsOf rows id).head? = rows[collation.position rows id]? := by
  unfold rowsOf position
  rw [List.head?_filter, List.find?_eq_getElem?_findIdx]

/-- All is counted in a table that an `int` can count. -/
theorem Collation.counted_of_lt (collation : Collation)
    (hpresent : ∃ row ∈ rows, row.column 0 = id) (hrows : rows.length < 2 ^ 31) :
    collation.Counted rows id := by
  have hposition := collation.position_lt hpresent
  have hle : (collation.rowsOf rows id).length ≤ rows.length := List.length_filter_le _ _
  have hpos : 0 < (collation.rowsOf rows id).length := by
    obtain ⟨row, hrow, hsame⟩ := collation.exists_same hpresent
    exact List.length_pos_of_mem (List.mem_filter.mpr ⟨hrow, hsame⟩)
  refine ⟨?_, ?_⟩
  · rw [toInt32_of_lt (by omega)]
    omega
  · rw [toInt32_of_lt hrows]
    omega

theorem text_all (table : TableName) :
    selectText table.text [] = (Query.select table []).text := by
  rw [Query.text_select, List.map_nil]

theorem text_one (table : TableName) (id : Bytes) :
    selectText table.text [equals "InstrumentID" id] =
      (Query.select table [.is .instrumentID id]).text := by
  rw [Query.text_select, List.map_singleton, Comparison.text_is]
  rfl

/-- The rows as `ExecuteSQL` finds them. -/
theorem Collation.Serves.executeSQL_all (hserves : collation.Serves select table rows) :
    executeSQL select (selectText table.text []) =
      some (rows.map fun row ↦ row.map cString) := by
  have hlex : lex (cString (selectText table.text [])) =
      some (Query.select table []).statement := by
    rw [text_all, Query.lex_cString_text_iff]
    exact fun _ hcomparison ↦ absurd hcomparison List.not_mem_nil
  rw [executeSQL, hserves.all _ hlex, Option.map_some]

theorem Collation.Serves.executeSQL_one (hserves : collation.Serves select table rows)
    (hnul : 0 ∉ id) (hverbatim : Verbatim singleQuote id) :
    executeSQL select (selectText table.text [equals "InstrumentID" id]) =
      some ((collation.rowsOf rows id).map fun row ↦ row.map cString) := by
  have hlex : lex (cString (selectText table.text [equals "InstrumentID" id])) =
      some (Query.select table [.is .instrumentID id]).statement := by
    rw [text_one, Query.lex_cString_text_iff]
    intro comparison hcomparison
    rw [List.mem_singleton.mp hcomparison]
    exact ⟨hnul, hverbatim⟩
  rw [executeSQL, hserves.one _ id hlex, Option.map_some]

/-! ### One row and the list -/

variable {Record : Type} {read : Row → Record}

theorem recordCount_some (rows : List Row) : recordCount (some rows) = toInt32 rows.length := by
  rw [recordCount, Option.elim_some]

theorem readOne_of_some {name : Bytes}
    (hanswer : executeSQL select (selectText name [equals "InstrumentID" id]) = some rows)
    (read : Row → Record) : readOne select name id read =
      if toInt32 rows.length ≤ 0 then none else some (read (rows.headD [])) := by
  unfold readOne
  extract_lets answer
  have hsome : answer = some rows := hanswer
  rw [hsome, recordCount_some, Option.getD_some]

theorem readAll_of_some {name : Bytes}
    (hanswer : executeSQL select (selectText name []) = some rows) (read : Row → Record)
    (field : Record) : readAll select name (fun _ ↦ read) field =
      if toInt32 rows.length ≤ 0 then none
      else some ((rows.take (toInt32 rows.length).toNat).map read) := by
  unfold readAll
  extract_lets answer
  have hsome : answer = some rows := hanswer
  have hmap : ∀ rows, readRows (fun _ ↦ read) field rows = rows.map read := by
    intro rows
    apply readRows_eq_map
    exact fun _ _ _ ↦ rfl
  rw [hsome, recordCount_some, Option.getD_some, hmap]

/-- With as many rows as an `int` can count, these are the ways of the other getters. -/
theorem readOne_eq_readFirst {name : Bytes} (hcount : ∀ rows,
    executeSQL select (selectText name [equals "InstrumentID" id]) = some rows →
      rows.length < 2 ^ 31) (assign : Record → Row → Record) (field : Record) :
    readOne select name id (assign field) =
      readFirst assign field (executeSQL select (selectText name [equals "InstrumentID" id])) := by
  unfold readFirst
  cases hanswer : executeSQL select (selectText name [equals "InstrumentID" id]) with
  | none =>
    unfold readOne
    rw [hanswer]
    rfl
  | some rows =>
    rw [readOne_of_some hanswer, toInt32_of_lt (hcount rows hanswer)]
    cases rows with
    | nil => rfl
    | cons row rows =>
      rw [if_neg (by rw [List.length_cons]; omega), nonEmpty_of_mem List.mem_cons_self,
        Option.map_some]

/-- For an instrument that is asked for as it is, the two ways agree when its rows are counted. -/
theorem Collation.Serves.sameEntry_iff (hserves : collation.Serves select table rows)
    (hpresent : ∃ row ∈ rows, row.column 0 = id) (hnul : 0 ∉ id)
    (hverbatim : Verbatim singleQuote id) (read : Row → Record) (field : Record) :
    SameEntry (readOne select table.text id read) (readAll select table.text (fun _ ↦ read) field)
      (collation.position rows id) ↔ collation.Counted rows id := by
  obtain ⟨first, hfirst⟩ : ∃ first, rows[collation.position rows id]? = some first :=
    ⟨_, List.getElem?_eq_getElem (collation.position_lt hpresent)⟩
  have hhead := collation.head_rowsOf rows id
  rw [hfirst, List.head?_eq_some_iff] at hhead
  obtain ⟨others, hrows⟩ := hhead
  rw [readOne_of_some (hserves.executeSQL_one hnul hverbatim),
    readAll_of_some hserves.executeSQL_all, List.length_map, List.length_map, hrows, ← hrows]
  constructor
  · rintro ⟨record, records, hone, hall, hentry⟩
    split_ifs at hone hall with hfound hlisted
    obtain rfl := Option.some.inj hall
    obtain ⟨hlt, -⟩ := List.getElem?_eq_some_iff.mp hentry
    rw [List.length_map, List.length_take, List.length_map] at hlt
    exact ⟨by omega, by omega⟩
  · rintro ⟨hfound, hlisted⟩
    have hpositive : ¬ toInt32 rows.length ≤ 0 := by omega
    refine ⟨read (first.map cString), _, ?_, if_neg hpositive, ?_⟩
    · rw [if_neg (Int.not_le.mpr hfound), hrows, List.map_cons, List.headD_cons]
    · rw [List.getElem?_map, List.getElem?_take_of_lt (by omega), List.getElem?_map, hfirst,
        Option.map_some, Option.map_some]

/-! ### An instrument that the server reads differently -/

/-- The text in front of the instrument in a condition. -/
def conditionFront (table : TableName) : Bytes :=
  (Query.select table [.is .instrumentID []]).statement.head

theorem fixed_conditionFront (table : TableName) : Fixed (conditionFront table) :=
  Query.fixed_head_statement _

theorem text_one_eq (table : TableName) (id : Bytes) :
    (Query.select table [.is .instrumentID id]).text =
      conditionFront table ++ singleQuote :: (id ++ ascii "';") := by
  have hquote : ascii "'" = [singleQuote] := rfl
  have hclose : ascii "';" = singleQuote :: ascii ";" := rfl
  simp [Query.text, Query.condition, conditionFront, Query.statement, Query.select, Query.around,
    Comparison.text, Comparison.is, hquote, hclose]

theorem cString_text_one (table : TableName) (id : Bytes) :
    cString (Query.select table [.is .instrumentID id]).text =
      conditionFront table ++ singleQuote :: cString (id ++ ascii "';") := by
  have hfront : ∀ byte ∈ conditionFront table, decide (byte ≠ 0) = true := fun byte hbyte ↦
    decide_eq_true (ne_of_mem_of_not_mem hbyte (fixed_conditionFront table).nul)
  rw [text_one_eq, cString, List.takeWhile_append_of_pos hfront]
  rfl

/-- A text with a condition is not read as one without. -/
theorem lex_text_one_ne_all (table : TableName) (id : Bytes) :
    lex (cString (Query.select table [.is .instrumentID id]).text) ≠
      some (Query.select table []).statement := by
  intro hlex
  have hfront := fixed_conditionFront table
  rw [cString_text_one, lex_piece hfront.double hfront.single, Option.map_eq_some_iff] at hlex
  obtain ⟨behind, -, hstatement⟩ := hlex
  have hlength := congrArg (fun statement ↦ statement.head.length) hstatement
  have hwhere : (ascii " WHERE ").length = 7 := rfl
  have hsemicolon : (ascii ";").length = 1 := rfl
  simp only [conditionFront, Query.statement, Query.select, Query.around, List.length_append]
    at hlength
  omega

/-- What is read for an instrument is not longer than the instrument, and shorter than the part of
it in front of a NUL. -/
theorem length_of_lex_text_one {other : Bytes}
    (hlex : lex (cString (Query.select table [.is .instrumentID id]).text) =
      some (Query.select table [.is .instrumentID other]).statement) :
    other.length ≤ id.length ∧ (0 ∈ id → other.length < (cString id).length) := by
  have hsize := Statement.size_le_of_lex hlex
  rw [← Statement.length_written, ← Query.text_eq_written, text_one_eq, cString_text_one] at hsize
  have hclose : (ascii "';").length = 2 := rfl
  have hcut : (cString (id ++ ascii "';")).length ≤ (id ++ ascii "';").length :=
    (List.takeWhile_prefix _).length_le
  simp only [List.length_append, List.length_cons] at hsize hcut
  refine ⟨by omega, fun hnul ↦ ?_⟩
  have hshort : cString (id ++ ascii "';") = cString id := by
    have hlt : (id.takeWhile (· ≠ 0)).length ≠ id.length := by
      intro hall
      have hself : cString id = id := (List.takeWhile_prefix _).eq_of_length hall
      rw [← hself] at hnul
      exact nul_not_mem_cString id hnul
    rw [cString, List.takeWhile_append, if_neg hlt]
    rfl
  rw [hshort] at hsize
  omega

theorem column_map_cString (row : Row) (index : ℕ) :
    Row.column (row.map cString) index = cString (row.column index) := by
  have hnil : cString [] = [] := rfl
  unfold Row.column
  rw [List.getD_eq_getElem?_getD, List.getD_eq_getElem?_getD, List.getElem?_map]
  cases row[index]? <;> simp [hnil]

/-- A record that is found was read from the first row of the answer. -/
theorem exists_row_of_readOne {name : Bytes} {record : Record}
    (hone : readOne select name id read = some record) :
    ∃ row others, executeSQL select (selectText name [equals "InstrumentID" id]) =
      some (row :: others) ∧ read row = record := by
  unfold readOne at hone
  extract_lets answer at hone
  split_ifs at hone with hcount
  cases hanswer : answer with
  | none =>
    rw [hanswer] at hcount
    exact absurd (by decide) hcount
  | some rows =>
    rw [hanswer, recordCount_some] at hcount
    cases rows with
    | nil => exact absurd (by decide) hcount
    | cons row others =>
      refine ⟨row, others, hanswer, ?_⟩
      rw [hanswer] at hone
      exact Option.some.inj hone

/-- A query for an instrument is answered with the rows of the one that is read. -/
theorem Collation.exists_read_of_server {found : List Row}
    (hfound : collation.server table rows
      (cString (Query.select table [.is .instrumentID id]).text) = some found) :
    ∃ other, lex (cString (Query.select table [.is .instrumentID id]).text) =
      some (Query.select table [.is .instrumentID other]).statement ∧
        found = collation.rowsOf rows other := by
  unfold server at hfound
  rw [if_neg (lex_text_one_ne_all table id), Option.bind_eq_some_iff] at hfound
  obtain ⟨statement, hlex, hrows⟩ := hfound
  dsimp only at hrows
  split_ifs at hrows with hstatement
  exact ⟨_, hlex.trans (congrArg some hstatement), (Option.some.inj hrows).symm⟩

/-- The entry of an instrument in the list has the instrument as its key. -/
theorem key_of_entry {key : Record → Bytes} (hkey : ∀ row, key (read row) = row.column 0)
    {field record : Record} {records : List Record}
    (hall :
      readAll (Collation.binary.server table rows) table.text (fun _ ↦ read) field = some records)
    (hentry : records[Collation.binary.position rows id]? = some record) :
    key record = cString id := by
  rw [readAll_of_some (Collation.binary.serves_server table rows).executeSQL_all] at hall
  split_ifs at hall
  obtain rfl := Option.some.inj hall
  rw [List.getElem?_map, Option.map_eq_some_iff] at hentry
  obtain ⟨texts, htexts, rfl⟩ := hentry
  rw [List.getElem?_take] at htexts
  split_ifs at htexts
  rw [List.getElem?_map, Option.map_eq_some_iff] at htexts
  obtain ⟨row, hrow, rfl⟩ := htexts
  have hsame := Collation.binary.same_of_position hrow
  rw [Collation.binary_same_iff] at hsame
  rw [hkey, column_map_cString, hsame]

/-- When a server that compares bytes finds the right entry, it has read the instrument as it is. -/
theorem asked_of_sameEntry {key : Record → Bytes} (hkey : ∀ row, key (read row) = row.column 0)
    {field : Record}
    (hsame : SameEntry (readOne (Collation.binary.server table rows) table.text id read)
      (readAll (Collation.binary.server table rows) table.text (fun _ ↦ read) field)
      (Collation.binary.position rows id)) : 0 ∉ id ∧ Verbatim singleQuote id := by
  obtain ⟨record, records, hone, hall, hentry⟩ := hsame
  obtain ⟨row, others, hanswer, rfl⟩ := exists_row_of_readOne hone
  rw [executeSQL, text_one, Option.map_eq_some_iff] at hanswer
  obtain ⟨found, hfound, hmap⟩ := hanswer
  obtain ⟨other, hlex, rfl⟩ := Collation.exists_read_of_server hfound
  obtain ⟨first, rest, hrows, rfl, -⟩ := List.map_eq_cons_iff.mp hmap
  have hfirst : first ∈ Collation.binary.rowsOf rows other := hrows ▸ List.mem_cons_self
  have hsame := Collation.binary.same_of_mem hfirst
  rw [Collation.binary_same_iff] at hsame
  have htexts : cString other = cString id := by
    rw [← key_of_entry hkey hall hentry, hkey, column_map_cString, hsame]
  obtain ⟨hle, hcut⟩ := length_of_lex_text_one hlex
  have hother : (cString other).length ≤ other.length := (List.takeWhile_prefix _).length_le
  by_cases hnul : 0 ∈ id
  · have hlt := hcut hnul
    rw [← htexts] at hlt
    omega
  · rw [cString_eq_of_nul hnul] at htexts
    have hlong : other.length ≤ (cString other).length := by
      rw [htexts]
      exact hle
    have hself : cString other = other := (List.takeWhile_prefix _).eq_of_length_le hlong
    rw [← hself, htexts, Query.lex_cString_text_iff] at hlex
    exact hlex _ (List.mem_singleton_self _)

/-- What an instrument must be for the two ways to agree: its text has no NUL and is read back as it
is, and its rows are counted however the server compares instruments. -/
structure Listable (rows : List Row) (id : Bytes) : Prop where
  nul : 0 ∉ id
  verbatim : Verbatim singleQuote id
  counted : ∀ collation : Collation, collation.Counted rows id

/-- The two ways of reading rates agree on every server with the table exactly for such an
instrument. -/
theorem sameEntry_iff_listable {read : Select → Row → Record} {key : Record → Bytes}
    (hkey : ∀ select row, key (read select row) = row.column 0)
    (hpresent : ∃ row ∈ rows, row.column 0 = id) (field : Record) :
    (∀ (collation : Collation) (select : Select), collation.Serves select table rows →
      SameEntry (readOne select table.text id (read select))
        (readAll select table.text (fun _ ↦ read select) field) (collation.position rows id)) ↔
      Listable rows id := by
  constructor
  · intro hall
    obtain ⟨hnul, hverbatim⟩ := asked_of_sameEntry (hkey (Collation.binary.server table rows))
      (hall .binary _ (Collation.binary.serves_server table rows))
    refine ⟨hnul, hverbatim, fun collation ↦ ?_⟩
    exact ((collation.serves_server table rows).sameEntry_iff hpresent hnul hverbatim _ field).mp
      (hall collation _ (collation.serves_server table rows))
  · rintro ⟨hnul, hverbatim, hcounted⟩ collation select hserves
    exact (hserves.sameEntry_iff hpresent hnul hverbatim _ field).mpr (hcounted collation)

end Servers

/-! ### The getters agree -/

section Agreement

variable {Double : Type} [Mul Double] [Add Double] [Zero Double] [One Double]
variable (c : Conversions Double) (modelid : ℤ)

/-- The rates of one instrument are what `Getter.get` finds. -/
theorem getMarginRateInfo_eq_get (select : Select) (field : MarginRateInfoField Double) {id : Bytes}
    (hcount : ∀ rows, executeSQL select (selectText marginRateTable [equals "InstrumentID" id]) =
      some rows → rows.length < 2 ^ 31) :
    (getMarginRateInfo c select field modelid id).map ([·]) =
      (Getter.getMarginRateInfo modelid id).get c select field := by
  rw [getMarginRateInfo_eq, readOne_eq_readFirst hcount]
  rfl

theorem getCommissionRateInfo_eq_get (select : Select) (field : CommissionRateInfoField Double)
    {id : Bytes} (hcount : ∀ rows,
      executeSQL select (selectText commissionRateTable [equals "InstrumentID" id]) = some rows →
        rows.length < 2 ^ 31) :
    (getCommissionRateInfo c select field modelid id).map ([·]) =
      (Getter.getCommissionRateInfo modelid id).get c select field := by
  rw [getCommissionRateInfo_eq, readOne_eq_readFirst hcount]
  rfl

/-- For an instrument that a table of rates lists, the record of the getter for one instrument is
the first entry of the instrument in the list of the getter for all, whatever the models are and
whatever the records held before, exactly when the instrument is listable. -/
theorem rates_agree_iff {rows : List Row} {id : Bytes} (hpresent : ∃ row ∈ rows, row.column 0 = id)
    (field other : MarginRateInfoField Double) (model : MarginRateModelInfoField Double)
    (fee otherFee : CommissionRateInfoField Double)
    (feeModel : CommissionRateModelInfoField Double) :
    ((∀ (collation : Collation) (select : Select), collation.Serves select .marginRate rows →
      SameEntry (getMarginRateInfo c select field modelid id)
        (getMarginRateInfosOfModel c select other model modelid) (collation.position rows id)) ↔
      Listable rows id) ∧
    ((∀ (collation : Collation) (select : Select), collation.Serves select .commissionRate rows →
      SameEntry (getCommissionRateInfo c select fee modelid id)
        (getCommissionRateInfosOfModel c select otherFee feeModel modelid)
        (collation.position rows id)) ↔
      Listable rows id) := by
  simp only [getMarginRateInfo_eq, getMarginRateInfosOfModel_eq, getCommissionRateInfo_eq,
    getCommissionRateInfosOfModel_eq]
  exact ⟨sameEntry_iff_listable
      (fun select ↦ field.instrumentID_adjusted c select modelid) hpresent other,
    sameEntry_iff_listable
      (fun select ↦ fee.instrumentID_adjusted c select modelid) hpresent otherFee⟩

end Agreement

/-- A row of the table of margin rates. -/
def marginRow (instrumentID : String) : Row :=
  [ascii instrumentID, ascii "1", ascii "1", ascii "8", ascii "0", ascii "9", ascii "0", ascii "0"]

/-- Two instruments with margin rates. -/
def marginRows : List Row := [marginRow "cu2001", marginRow "rb2001"]

/-- The query for a model. -/
def marginModelText : Bytes :=
  selectText marginRateModelTable [equals "MarginRateModelID" (ascii "1")]

/-- A server with the two instruments, and a model with the factor three. -/
def marginServer : Select := fun text ↦
  if text = marginModelText then some [[ascii "1", [], [], [], [], ascii "0", ascii "3"]]
  else Collation.binary.server .marginRate marginRows text

theorem head_of_lex_marginModelText {statement : Statement}
    (hlex : lex marginModelText = some statement) :
    statement.head = ascii "SELECT * FROM `t_etp_marginratemodel` WHERE MarginRateModelID = " := by
  have hhead : (lex marginModelText).map Statement.head =
      some (ascii "SELECT * FROM `t_etp_marginratemodel` WHERE MarginRateModelID = ") := by
    decide +kernel
  rw [hlex] at hhead
  exact Option.some.inj hhead

theorem serves_marginServer : Collation.binary.Serves marginServer .marginRate marginRows := by
  have hserves := Collation.binary.serves_server .marginRate marginRows
  refine ⟨fun text hlex ↦ ?_, fun text id hlex ↦ ?_⟩
  · have hne : text ≠ marginModelText := by
      rintro rfl
      exact absurd (head_of_lex_marginModelText hlex) (by decide +kernel)
    rw [marginServer, if_neg hne, hserves.all text hlex]
  · have hne : text ≠ marginModelText := by
      rintro rfl
      have hhead := head_of_lex_marginModelText hlex
      change conditionFront .marginRate = _ at hhead
      exact absurd hhead (by decide +kernel)
    rw [marginServer, if_neg hne, hserves.one text id hlex]

/-- On a server with two instruments and a model, the rates of the second are its entry in the list,
and both are those of the model. -/
theorem rates_agree_of_model :
    SameEntry (getMarginRateInfo decimal marginServer default 1 (ascii "rb2001"))
        (getMarginRateInfosOfModel decimal marginServer default default 1)
        (Collation.binary.position marginRows (ascii "rb2001")) ∧
      (getMarginRateInfo decimal marginServer default 1 (ascii "rb2001")).map
        MarginRateInfoField.longMarginRatioByMoney = some 24 := by
  have hpresent : ∃ row ∈ marginRows, row.column 0 = ascii "rb2001" :=
    ⟨_, List.mem_cons_of_mem _ (List.mem_singleton_self _), rfl⟩
  refine ⟨?_, by decide +kernel⟩
  refine (rates_agree_iff decimal 1 hpresent default default default default default default).1.mpr
    ⟨by decide, by decide, fun collation ↦ ?_⟩ _ _ serves_marginServer
  exact collation.counted_of_lt hpresent (by decide)

/-- The instrument `a'b` is listed, but the query for it is not read. -/
theorem quoted_instrument_not_found :
    (getMarginRateInfo decimal (Collation.binary.server .marginRate [marginRow "a'b"]) default 1
      (ascii "a'b")).isNone = true ∧
    (getMarginRateInfosOfModel decimal (Collation.binary.server .marginRate [marginRow "a'b"])
      default default 1).map (List.map MarginRateInfoField.instrumentID) =
        some [ascii "a'b"] ∧
    ¬ SameEntry
      (getMarginRateInfo decimal (Collation.binary.server .marginRate [marginRow "a'b"]) default 1
        (ascii "a'b"))
      (getMarginRateInfosOfModel decimal (Collation.binary.server .marginRate [marginRow "a'b"])
        default default 1)
      (Collation.binary.position [marginRow "a'b"] (ascii "a'b")) := by
  have hnone : (getMarginRateInfo decimal (Collation.binary.server .marginRate [marginRow "a'b"])
      default 1 (ascii "a'b")).isNone = true := by
    decide +kernel
  refine ⟨hnone, by decide +kernel, ?_⟩
  rintro ⟨record, records, hone, -⟩
  rw [hone] at hnone
  cases hnone

end TradeServers.DbLayer
