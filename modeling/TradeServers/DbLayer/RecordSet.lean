import TradeServers.DbLayer.Statement
import Mathlib.Data.List.ReduceOption

/-!
# Record sets of the trading database layer

`CRecordSet` holds the rows of the last query that succeeded, and a `CField` with the names and
types of the columns, to which its records point. `ExecuteSQL` clears the rows, overwrites the
counters and appends to the `CField`, so that the columns of earlier queries stay in front of the
new ones. `results_described_iff` says when they do no harm.

A cell of a row reaches the records as a C string, and a `NULL` as an empty one.
-/

set_option autoImplicit false
set_option relaxedAutoImplicit false

namespace TradeServers.DbLayer

/-! ### Result sets -/

/-- A column of a result set. -/
@[ext]
structure ResultColumn where
  name : Bytes
  type : ℕ
deriving DecidableEq

/-- A result set: its columns and the cells of its rows, which may be `NULL`. A row has a cell for
each column, and MySQL allows at most 4096 columns. -/
structure ResultSet where
  columns : List ResultColumn
  rows : List (List (Option Bytes))
  wide : ∀ row ∈ rows, row.length = columns.length
  narrow : columns.length ≤ 4096

/-- What the server sent for the cells. -/
def ResultSet.texts (result : ResultSet) : List Row := result.rows.map fun row ↦
  row.map fun cell ↦ cell.getD []

/-- The index of the first column of a name. -/
def ResultSet.position (result : ResultSet) (name : Bytes) : Option ℕ :=
  result.columns.findIdx? (·.name = name)

/-! ### The objects -/

/-- `CField`: the names and the types of columns. -/
structure CField where
  name : List Bytes
  type : List ℕ
deriving DecidableEq

/-- `CField::GetField_NO`. -/
def CField.getFieldNO (field : CField) (fieldName : Bytes) : ℤ :=
  match field.name.findIdx? (· = fieldName) with
  | some index => index
  | none => -1

/-- `CRecordSet`: the records `m_s`, the cursor, the counters and the columns. -/
structure CRecordSet where
  records : List Row
  pos : ℕ
  recordCount : ℤ
  fieldNum : ℤ
  field : CField
deriving DecidableEq

/-- An access to a vector by an index. There is no element when `at` throws, or when `operator[]`
leaves the vector, which is undefined. -/
def atIndex {α : Type} (items : List α) (index : ℤ) : Option α :=
  if 0 ≤ index then items[index.toNat]? else none

@[simp]
theorem atIndex_natCast {α : Type} (items : List α) (index : ℕ) :
    atIndex items (index : ℤ) = items[index]? := by
  rw [atIndex, if_pos (Int.natCast_nonneg index), Int.toNat_natCast]

namespace CRecordSet

/-- The constructor. -/
def new : CRecordSet := ⟨[], 0, 0, 0, ⟨[], []⟩⟩

/-- The value that a record gets for a cell. -/
def cellText : Option Bytes → Bytes
  | none => []
  | some text => cString text

/-- `CRecordSet::ExecuteSQL`, given the result set that the server answers with, unless the query
fails: what it returns, and the object. -/
def executeSQL (recordSet : CRecordSet) : Option ResultSet → ℤ × CRecordSet
  | none => (-1, recordSet)
  | some result =>
    let records := result.rows.map fun row ↦ row.map cellText
    (toInt32 records.length,
      { recordSet with
        records
        recordCount := toInt32 result.rows.length
        fieldNum := result.columns.length
        field :=
          { name := recordSet.field.name ++ result.columns.map ResultColumn.name
            type := recordSet.field.type ++ result.columns.map ResultColumn.type } })

/-- `CRecordSet::GetRecordCount`. -/
def getRecordCount (recordSet : CRecordSet) : ℤ := recordSet.recordCount

/-- `CRecordSet::GetFieldNum`. -/
def getFieldNum (recordSet : CRecordSet) : ℤ := recordSet.fieldNum

/-- `CRecordSet::GetFieldName`. -/
def getFieldName (recordSet : CRecordSet) (num : ℤ) : Option Bytes :=
  atIndex recordSet.field.name num

/-- `CRecordSet::GetFieldType` by index. -/
def getFieldType (recordSet : CRecordSet) (num : ℤ) : Option ℕ :=
  atIndex recordSet.field.type num

/-- `CRecordSet::GetFieldType` by name. -/
def getFieldTypeOf (recordSet : CRecordSet) (name : Bytes) : Option ℕ :=
  recordSet.getFieldType (recordSet.field.getFieldNO name)

/-- `CRecordSet::GetFieldValue` by index, which is also what `operator[]` of the set and of its
record find. -/
def getFieldValue (recordSet : CRecordSet) (index num : ℤ) : Option Bytes :=
  (atIndex recordSet.records index).bind fun record ↦ atIndex record num

/-- `CRecordSet::GetFieldValue` by name, which is also what `operator[]` of the set and of its
record find: the record points to the columns of the set. -/
def getFieldValueOf (recordSet : CRecordSet) (index : ℤ) (name : Bytes) : Option Bytes :=
  recordSet.getFieldValue index (recordSet.field.getFieldNO name)

/-- The object after some calls of `ExecuteSQL`. -/
def executeAll (recordSet : CRecordSet) (answers : List (Option ResultSet)) : CRecordSet :=
  answers.foldl (fun recordSet answer ↦ (recordSet.executeSQL answer).2) recordSet

end CRecordSet

/-- The getters see of a result set the records of an object that has executed nothing else. -/
theorem executeSQL_eq_records (answers : Bytes → Option ResultSet) (sql : Bytes) :
    executeSQL (fun text ↦ (answers text).map ResultSet.texts) sql =
      (answers (cString sql)).map fun result ↦
        (CRecordSet.new.executeSQL (some result)).2.records := by
  have hcell : ∀ cell : Option Bytes, cString (cell.getD []) = CRecordSet.cellText cell := by
    rintro (_ | text) <;> rfl
  have hrecords : ∀ result : ResultSet, result.texts.map (fun row ↦ row.map cString) =
      (CRecordSet.new.executeSQL (some result)).2.records := by
    intro result
    change _ = result.rows.map fun row ↦ row.map CRecordSet.cellText
    simp [ResultSet.texts, Function.comp_def, hcell]
  unfold executeSQL
  rw [Option.map_map]
  exact congrArg (Option.map · _) (funext hrecords)

/-! ### What a result set is -/

/-- The object describes a result set: its counters, the names and types of its columns by index and
by name, and its cells by the index and by the name of their column. A name that no column has is
not found. -/
structure CRecordSet.Describes (recordSet : CRecordSet) (result : ResultSet) : Prop where
  recordCount : recordSet.getRecordCount = result.rows.length
  fieldNum : recordSet.getFieldNum = result.columns.length
  fieldName : ∀ (num : ℕ) column, result.columns[num]? = some column →
    recordSet.getFieldName num = some column.name
  fieldType : ∀ (num : ℕ) column, result.columns[num]? = some column →
    recordSet.getFieldType num = some column.type
  fieldNO : ∀ name, recordSet.field.getFieldNO name =
    ((result.position name).map Nat.cast).getD (-1)
  fieldTypeOf : ∀ name num column, result.position name = some num →
    result.columns[num]? = some column → recordSet.getFieldTypeOf name = some column.type
  value : ∀ (index num : ℕ) row cell, result.rows[index]? = some row → row[num]? = some cell →
    recordSet.getFieldValue index num = some (cell.getD [])
  valueOf : ∀ (index num : ℕ) name row cell, result.rows[index]? = some row →
    result.position name = some num → row[num]? = some cell →
      recordSet.getFieldValueOf index name = some (cell.getD [])

/-- The columns `before` that were left behind do no harm to a result set: with them in front, the
columns still begin with those of the result set, and no other names are among them. The rows can be
counted by an `int`, and the cells are C strings. -/
structure ResultSet.Undisturbed (result : ResultSet) (before : List ResultColumn) : Prop where
  rows : result.rows.length < 2 ^ 31
  nul : ∀ row ∈ result.rows, ∀ text, some text ∈ row → 0 ∉ text
  columns : result.columns <+: before ++ result.columns
  names : ∀ column ∈ before, column.name ∈ result.columns.map ResultColumn.name

/-! ### Sequences of calls -/

namespace CRecordSet

variable {recordSet : CRecordSet} {result : ResultSet} {before : List ResultColumn}

/-- A call that fails changes nothing. -/
theorem executeSQL_none (recordSet : CRecordSet) :
    (recordSet.executeSQL none).2 = recordSet := rfl

theorem executeAll_append (recordSet : CRecordSet) (first second : List (Option ResultSet)) :
    recordSet.executeAll (first ++ second) = (recordSet.executeAll first).executeAll second :=
  List.foldl_append

theorem executeAll_failures (recordSet : CRecordSet) (failures : ℕ) :
    recordSet.executeAll (List.replicate failures none) = recordSet := by
  induction failures with
  | zero => rfl
  | succ failures ih =>
    rw [List.replicate_succ]
    exact ih

/-- The columns of all calls that succeed stay in the object. -/
theorem field_executeAll (answers : List (Option ResultSet)) (recordSet : CRecordSet) :
    (recordSet.executeAll answers).field =
      { name := recordSet.field.name ++
          (answers.reduceOption.flatMap ResultSet.columns).map ResultColumn.name
        type := recordSet.field.type ++
          (answers.reduceOption.flatMap ResultSet.columns).map ResultColumn.type } := by
  induction answers generalizing recordSet with
  | nil => simp [executeAll]
  | cons answer answers ih =>
    change ((recordSet.executeSQL answer).2.executeAll answers).field = _
    rw [ih]
    cases answer with
    | none => rw [List.reduceOption_cons_of_none, executeSQL_none]
    | some result =>
      rw [List.reduceOption_cons_of_some, List.flatMap_cons, List.map_append, List.map_append,
        ← List.append_assoc, ← List.append_assoc]
      rfl

/-- The first column of a name is the same in a list that the columns begin, when the other columns
have no other names. -/
theorem position_of_prefix {columns : List ResultColumn} (hstart : result.columns <+: columns)
    (hnames : ∀ column ∈ columns, column.name ∈ result.columns.map ResultColumn.name)
    (name : Bytes) :
    (columns.map ResultColumn.name).findIdx? (· = name) = result.position name := by
  obtain ⟨rest, rfl⟩ := hstart
  unfold ResultSet.position
  rw [List.findIdx?_map, List.findIdx?_append]
  change (result.columns.findIdx? (·.name = name)).or _ = _
  cases hfind : result.columns.findIdx? (·.name = name) with
  | some num => rfl
  | none =>
    rw [List.findIdx?_eq_none_iff] at hfind
    have hrest :
        rest.findIdx? ((fun other ↦ decide (other = name)) ∘ ResultColumn.name) = none := by
      rw [List.findIdx?_eq_none_iff]
      intro column hcolumn
      obtain ⟨other, hother, hsame⟩ :=
        List.mem_map.mp (hnames column (List.mem_append_right _ hcolumn))
      have hne := hfind other hother
      rw [hsame] at hne
      exact hne
    rw [hrest]
    rfl

/-- The columns of an object begin with those of a result set exactly when it gives their names and
types by their indices. -/
theorem prefix_iff {columns : List ResultColumn} : result.columns <+: columns ↔
    ∀ (num : ℕ) column, result.columns[num]? = some column →
      (columns.map ResultColumn.name)[num]? = some column.name ∧
        (columns.map ResultColumn.type)[num]? = some column.type := by
  rw [List.prefix_iff_getElem?]
  constructor
  · intro hstart num column hcolumn
    obtain ⟨hnum, rfl⟩ := List.getElem?_eq_some_iff.mp hcolumn
    rw [List.getElem?_map, List.getElem?_map, hstart num hnum]
    exact ⟨rfl, rfl⟩
  · intro hall num hnum
    obtain ⟨hname, htype⟩ := hall num _ (List.getElem?_eq_getElem hnum)
    rw [List.getElem?_map, Option.map_eq_some_iff] at hname htype
    obtain ⟨column, hcolumn, hname⟩ := hname
    obtain ⟨other, hother, htype⟩ := htype
    obtain rfl := Option.some.inj (hcolumn.symm.trans hother)
    rw [hcolumn]
    exact congrArg some (ResultColumn.ext hname htype)

/-- A cell reaches the records as it is when it contains no NUL. -/
theorem cellText_eq_iff {cell : Option Bytes} :
    cellText cell = cell.getD [] ↔ ∀ text, cell = some text → 0 ∉ text := by
  cases cell with
  | none => exact iff_of_true rfl nofun
  | some text =>
    constructor
    · intro htext other hother hnul
      obtain rfl := Option.some.inj hother
      have hkeep : cString text = text := htext
      rw [← hkeep] at hnul
      exact nul_not_mem_cString text hnul
    · exact fun hnul ↦ cString_eq_of_nul (hnul text rfl)

theorem getRecordCount_executeSQL (recordSet : CRecordSet) (result : ResultSet) :
    (recordSet.executeSQL (some result)).2.getRecordCount = toInt32 result.rows.length := by
  rw [getRecordCount, executeSQL]

theorem name_executeSQL (hname : recordSet.field.name = before.map ResultColumn.name) :
    (recordSet.executeSQL (some result)).2.field.name =
      (before ++ result.columns).map ResultColumn.name := by
  rw [List.map_append, ← hname]
  rfl

theorem getFieldNO_executeSQL (hname : recordSet.field.name = before.map ResultColumn.name)
    (hundisturbed : result.Undisturbed before) (name : Bytes) :
    (recordSet.executeSQL (some result)).2.field.getFieldNO name =
      ((result.position name).map Nat.cast).getD (-1) := by
  have hnames : ∀ column ∈ before ++ result.columns,
      column.name ∈ result.columns.map ResultColumn.name := by
    intro column hcolumn
    rcases List.mem_append.mp hcolumn with hbefore | hown
    · exact hundisturbed.names column hbefore
    · exact List.mem_map_of_mem hown
  unfold CField.getFieldNO
  rw [name_executeSQL hname, position_of_prefix hundisturbed.columns hnames]
  cases result.position name <;> rfl

/-- The records hold the cells as they are when the cells are C strings. -/
theorem getFieldValue_executeSQL {index num : ℕ} {row : List (Option Bytes)} {cell : Option Bytes}
    (hrow : result.rows[index]? = some row) (hcell : row[num]? = some cell) :
    (recordSet.executeSQL (some result)).2.getFieldValue index num = some (cellText cell) := by
  unfold getFieldValue
  change (atIndex (result.rows.map fun row ↦ row.map cellText) index).bind _ = _
  rw [atIndex_natCast, List.getElem?_map, hrow, Option.map_some, Option.bind_some,
    atIndex_natCast, List.getElem?_map, hcell, Option.map_some]

theorem type_executeSQL (htype : recordSet.field.type = before.map ResultColumn.type) :
    (recordSet.executeSQL (some result)).2.field.type =
      (before ++ result.columns).map ResultColumn.type := by
  rw [List.map_append, ← htype]
  rfl

/-- A name that is left behind is found, so the result set that is described has it too. -/
theorem name_mem_of_describes (hname : recordSet.field.name = before.map ResultColumn.name)
    (hdescribes : (recordSet.executeSQL (some result)).2.Describes result) {column : ResultColumn}
    (hcolumn : column ∈ before) : column.name ∈ result.columns.map ResultColumn.name := by
  have hfieldNO := hdescribes.fieldNO column.name
  obtain ⟨num, hnum⟩ : ∃ num, (recordSet.executeSQL (some result)).2.field.name.findIdx?
      (· = column.name) = some num := by
    rw [← Option.isSome_iff_exists, List.findIdx?_isSome, List.any_eq_true]
    refine ⟨column.name, ?_, by simp⟩
    rw [name_executeSQL hname]
    exact List.mem_map_of_mem (List.mem_append_left _ hcolumn)
  unfold CField.getFieldNO at hfieldNO
  rw [hnum] at hfieldNO
  cases hposition : result.position column.name with
  | none =>
    rw [hposition] at hfieldNO
    change (num : ℤ) = -1 at hfieldNO
    omega
  | some own =>
    obtain ⟨hown, hfound, -⟩ := List.findIdx?_eq_some_iff_getElem.mp hposition
    exact List.mem_map.mpr ⟨result.columns[own], List.getElem_mem hown, by simpa using hfound⟩

theorem undisturbed_of_describes (hname : recordSet.field.name = before.map ResultColumn.name)
    (htype : recordSet.field.type = before.map ResultColumn.type)
    (hdescribes : (recordSet.executeSQL (some result)).2.Describes result) :
    result.Undisturbed before := by
  have hcount := hdescribes.recordCount
  rw [getRecordCount_executeSQL, toInt32_eq_self_iff] at hcount
  refine ⟨hcount, ?_, prefix_iff.mpr ?_, fun column ↦ name_mem_of_describes hname hdescribes⟩
  · intro row hrow text htext
    obtain ⟨index, hindex⟩ := List.mem_iff_getElem?.mp hrow
    obtain ⟨num, hnum⟩ := List.mem_iff_getElem?.mp htext
    have hvalue := hdescribes.value index num row (some text) hindex hnum
    rw [getFieldValue_executeSQL hindex hnum, Option.some.injEq] at hvalue
    exact cellText_eq_iff.mp hvalue text rfl
  · intro num column hcolumn
    have hfieldName := hdescribes.fieldName num column hcolumn
    have hfieldType := hdescribes.fieldType num column hcolumn
    unfold getFieldName at hfieldName
    unfold getFieldType at hfieldType
    rw [atIndex_natCast, name_executeSQL hname] at hfieldName
    rw [atIndex_natCast, type_executeSQL htype] at hfieldType
    exact ⟨hfieldName, hfieldType⟩

theorem describes_of_undisturbed (hname : recordSet.field.name = before.map ResultColumn.name)
    (htype : recordSet.field.type = before.map ResultColumn.type)
    (hundisturbed : result.Undisturbed before) :
    (recordSet.executeSQL (some result)).2.Describes result := by
  have hcolumns := prefix_iff.mp hundisturbed.columns
  have hfieldNO := getFieldNO_executeSQL hname hundisturbed
  have hvalue : ∀ (index num : ℕ) row cell, result.rows[index]? = some row →
      row[num]? = some cell →
      (recordSet.executeSQL (some result)).2.getFieldValue index num = some (cell.getD []) := by
    intro index num row cell hrow hcell
    rw [getFieldValue_executeSQL hrow hcell, cellText_eq_iff.mpr]
    rintro text rfl
    exact hundisturbed.nul row (List.mem_of_getElem? hrow) text (List.mem_of_getElem? hcell)
  have hfieldType : ∀ (num : ℕ) column, result.columns[num]? = some column →
      (recordSet.executeSQL (some result)).2.getFieldType num = some column.type := by
    intro num column hcolumn
    unfold getFieldType
    rw [atIndex_natCast, type_executeSQL htype]
    exact (hcolumns num column hcolumn).2
  have hcount : (recordSet.executeSQL (some result)).2.getRecordCount = result.rows.length := by
    rw [getRecordCount_executeSQL, toInt32_eq_self_iff]
    exact hundisturbed.rows
  refine ⟨hcount, rfl, ?_, hfieldType, hfieldNO, ?_, hvalue, ?_⟩
  · intro num column hcolumn
    unfold getFieldName
    rw [atIndex_natCast, name_executeSQL hname]
    exact (hcolumns num column hcolumn).1
  · intro name num column hposition hcolumn
    unfold getFieldTypeOf
    rw [hfieldNO, hposition]
    exact hfieldType num column hcolumn
  · intro index num name row cell hrow hposition hcell
    unfold getFieldValueOf
    rw [hfieldNO, hposition]
    exact hvalue index num row cell hrow hcell

/-- A result set is described by the object it was sent to exactly when the columns that the object
had before do it no harm. -/
theorem describes_executeSQL_iff (hname : recordSet.field.name = before.map ResultColumn.name)
    (htype : recordSet.field.type = before.map ResultColumn.type) :
    (recordSet.executeSQL (some result)).2.Describes result ↔ result.Undisturbed before :=
  ⟨undisturbed_of_describes hname htype, describes_of_undisturbed hname htype⟩

end CRecordSet

/-- After any calls of `ExecuteSQL`, the object describes the result of the last one that succeeded
exactly when the columns of the earlier ones do it no harm. Calls that fail change nothing. -/
theorem results_described_iff (answers : List (Option ResultSet)) (last : ResultSet)
    (failures : ℕ) :
    (CRecordSet.new.executeAll (answers ++ some last :: List.replicate failures none)).Describes
        last ↔ last.Undisturbed (answers.reduceOption.flatMap ResultSet.columns) := by
  have hfield := CRecordSet.field_executeAll answers CRecordSet.new
  rw [CRecordSet.executeAll_append]
  change (((CRecordSet.new.executeAll answers).executeSQL (some last)).2.executeAll
    (List.replicate failures none)).Describes last ↔ _
  rw [CRecordSet.executeAll_failures]
  exact CRecordSet.describes_executeSQL_iff (congrArg CField.name hfield)
    (congrArg CField.type hfield)

/-- A query for one column. -/
def volumeResult : ResultSet where
  columns := [⟨ascii "Volume", 3⟩]
  rows := [[some (ascii "1")]]
  wide := by decide
  narrow := by decide

/-- A query for two columns, the second of which is that of the other query. -/
def accountResult : ResultSet where
  columns := [⟨ascii "InvestorID", 253⟩, ⟨ascii "Volume", 3⟩]
  rows := [[some (ascii "77"), some (ascii "5")]]
  wide := by decide
  narrow := by decide

/-- After the two queries, the first column is taken for the volume, and the account is looked for
in the second. -/
theorem stale_columns_mix_values :
    (CRecordSet.new.executeAll [some volumeResult, some accountResult]).getFieldName 0 =
        some (ascii "Volume") ∧
      (CRecordSet.new.executeAll [some volumeResult, some accountResult]).getFieldValueOf 0
        (ascii "Volume") = some (ascii "77") ∧
      (CRecordSet.new.executeAll [some volumeResult, some accountResult]).getFieldValueOf 0
        (ascii "InvestorID") = some (ascii "5") ∧
      ¬ (CRecordSet.new.executeAll [some volumeResult, some accountResult]).Describes
        accountResult := by
  refine ⟨by decide +kernel, by decide +kernel, by decide +kernel, fun hdescribes ↦ ?_⟩
  have hname := hdescribes.fieldName 0 ⟨ascii "InvestorID", 253⟩ rfl
  exact absurd hname (by decide +kernel)

end TradeServers.DbLayer
