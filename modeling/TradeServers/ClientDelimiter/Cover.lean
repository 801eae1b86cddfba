import TradeServers.ClientDelimiter.Merge

/-!
# The output file of the client

`JsonTrans::coverJson` opens `output.json`, which empties it, and then parses the text that it is to
write. A text that does not parse therefore costs the client what it had saved, and `mergeJson`
ends in `coverJson` whatever its two documents are. `keepsOutput_iff` says when the file survives.

`opens` says whether the file can be opened for writing. Writes to an open file succeed.
-/

set_option autoImplicit false
set_option relaxedAutoImplicit false

namespace TradeServers.ClientDelimiter

section Output

variable (json : JsonCpp) (write : json.Value → Bytes)

/-! ### Files -/

/-- The file behind `ofstream ofs(name, fstream::out)`. -/
def openOutput (opens : Bool) (output : Option Bytes) : Option Bytes :=
  if opens then some [] else output

/-- The file behind `ofs << text`. -/
def appendOutput (opens : Bool) (output : Option Bytes) (text : Bytes) : Option Bytes :=
  if opens then output.map (· ++ text) else output

namespace JsonTrans

/-- `JsonTrans::coverJson`: what it leaves in the file. `write` is that of a `StyledWriter`. -/
def coverJson (opens : Bool) (output : Option Bytes) (str : Bytes) : Option Bytes :=
  let ofs := openOutput opens output
  match json.parse str with
  | none => ofs
  | some root => appendOutput opens ofs (write root)

/-- The whole of `JsonTrans::mergeJson`: what it leaves in the file. -/
def mergeJsonOutput (object : JsonTrans) (opens : Bool) (output : Option Bytes) (str : Bytes) :
    Option Bytes :=
  match object.mergeJson json str with
  | .error _ => output
  | .ok (merged, _) => coverJson json write opens output merged

end JsonTrans

/-! ### What is left in the file -/

/-- A merge whose server's document and argument do not parse leaves the file alone, and what
replaces the content of the file is a document that was parsed, in lines. -/
structure KeepsOutput (object : JsonTrans) (opens : Bool) (output : Option Bytes) (str : Bytes) :
    Prop where
  failed : json.parse object.mysqlStr = none → json.parse str = none →
    object.mergeJsonOutput json write opens output str = output
  replaced : JsonTrans.coverJson json write opens output str ≠ output →
    ∃ root, json.parse str = some root ∧
      JsonTrans.coverJson json write opens output str = some (write root)

variable {json} {object : JsonTrans} {opens : Bool} {output : Option Bytes} {str : Bytes}

/-- A text that does not parse empties the file. -/
theorem coverJson_of_none (hparse : json.parse str = none) :
    JsonTrans.coverJson json write opens output str = openOutput opens output := by
  unfold JsonTrans.coverJson
  rw [hparse]

/-- A text that parses is written in lines. -/
theorem coverJson_of_some {root : json.Value} (hparse : json.parse str = some root) :
    JsonTrans.coverJson json write opens output str =
      if opens then some (write root) else output := by
  unfold JsonTrans.coverJson openOutput appendOutput
  rw [hparse]
  by_cases hopens : opens = true <;> simp [hopens]

/-- Without a document of the server a merge only hands its argument on. -/
theorem mergeJsonOutput_of_none (hmysql : json.parse object.mysqlStr = none) :
    object.mergeJsonOutput json write opens output str =
      JsonTrans.coverJson json write opens output str := by
  have hmerge : object.mergeJson json str = .ok (str, object) := by
    unfold JsonTrans.mergeJson
    rw [hmysql]
    split
    · contradiction
    · contradiction
    · rfl
  unfold JsonTrans.mergeJsonOutput
  rw [hmerge]

theorem openOutput_eq_self_iff :
    openOutput opens output = output ↔ (opens = true → output = some []) := by
  unfold openOutput
  by_cases hopens : opens = true
  · simp only [hopens, if_true, forall_const]
    exact eq_comm
  · simp [hopens]

/-- A call keeps the file if and only if the file cannot be opened, is empty already, or the text
parses. -/
theorem keepsOutput_iff (json : JsonCpp) (write : json.Value → Bytes) (object : JsonTrans)
    (opens : Bool) (output : Option Bytes) (str : Bytes) :
    KeepsOutput json write object opens output str ↔
      (opens = true → output = some [] ∨ (json.parse str).isSome = true) := by
  cases hparse : json.parse str with
  | none =>
    have hcover : JsonTrans.coverJson json write opens output str = openOutput opens output :=
      coverJson_of_none write hparse
    rw [Option.isSome_none, or_iff_left Bool.false_ne_true, ← openOutput_eq_self_iff, ← hcover]
    constructor
    · intro hkeeps
      by_contra hchanged
      obtain ⟨root, hroot, -⟩ := hkeeps.replaced hchanged
      rw [hparse] at hroot
      cases hroot
    · intro hsame
      refine ⟨fun hmysql _ ↦ ?_, fun hchanged ↦ absurd hsame hchanged⟩
      rw [mergeJsonOutput_of_none write hmysql, hsame]
  | some root =>
    refine iff_of_true ⟨fun _ hnone ↦ ?_, fun hchanged ↦ ⟨root, hparse, ?_⟩⟩ fun _ ↦ .inr rfl
    · rw [hparse] at hnone
      cases hnone
    · rw [coverJson_of_some write hparse] at hchanged ⊢
      split_ifs at hchanged ⊢ with hopens
      · rfl
      · exact absurd rfl hchanged

/-- The answer `FAIL` of a server that has no document empties what an earlier merge has saved. -/
theorem failed_merge_empties :
    ¬ KeepsOutput Document.json Document.json.toStyledString
        (JsonTrans.initial.setMysqlStr (ascii "FAIL")) true (some (single 1)) [] ∧
      (JsonTrans.initial.setMysqlStr (ascii "FAIL")).mergeJsonOutput Document.json
        Document.json.toStyledString true (some (single 1)) [] = some [] := by
  have hmysql : Document.json.parse (JsonTrans.initial.setMysqlStr (ascii "FAIL")).mysqlStr =
      none := by decide
  have hstr : Document.json.parse [] = none := by decide
  have hempty : (JsonTrans.initial.setMysqlStr (ascii "FAIL")).mergeJsonOutput Document.json
      Document.json.toStyledString true (some (single 1)) [] = some [] := by
    rw [mergeJsonOutput_of_none _ hmysql, coverJson_of_none _ hstr]
    rfl
  refine ⟨fun hkeeps ↦ ?_, hempty⟩
  have hsaved := hkeeps.failed hmysql hstr
  rw [hempty] at hsaved
  exact absurd hsaved (by decide)

end Output

end TradeServers.ClientDelimiter
